import Mathlib.Data.List.Dedup
import Mathlib.Data.List.Perm.Basic
import Swarm.Worktree.Gate

/-! # The report against the open pull requests -/

namespace Swarm.Worktree

def MergeReport.ids (report : MergeReport) : List String :=
  report.merged ++ report.rejected.map Prod.fst ++ report.testFailures.map Prod.fst

/-- Every one of the pull requests is in the report once, in one of its parts, and nothing else
is. -/
def Accounted (prs : List PullRequest) (report : MergeReport) : Prop :=
  report.ids.Perm (prs.map (·.taskId))

/-- No file is changed by two of the pull requests. -/
def Apart (prs : List PullRequest) : Prop :=
  prs.Pairwise fun a b => ∀ f ∈ a.filesChanged, f ∉ b.filesChanged

/-! ## One turn -/

theorem assign_new {key value : String} {d : List (String × String)} (h : key ∉ d.map Prod.fst) :
    (assign key value d).map Prod.fst = d.map Prod.fst ++ [key] := by
  unfold assign
  rw [if_neg]
  · simp
  · intro hany
    obtain ⟨kv, hkv, hkey⟩ := List.any_eq_true.mp hany
    exact h (List.mem_map.mpr ⟨kv, hkv, by simpa using hkey⟩)

section Turn

variable {report : MergeReport} {id : String} (h : id ∉ report.ids)
include h

omit h in
theorem ids_merged :
    ({ report with merged := report.merged ++ [id] } : MergeReport).ids.Perm (report.ids ++ [id]) := by
  simp only [MergeReport.ids, List.append_assoc]
  refine List.Perm.append_left _ ?_
  rw [List.singleton_append, ← List.append_assoc]
  exact (List.perm_append_singleton id _).symm

theorem ids_rejected (reason : String) :
    ({ report with rejected := assign id reason report.rejected } : MergeReport).ids.Perm (report.ids ++ [id]) := by
  have hnew : id ∉ report.rejected.map Prod.fst := fun hmem => h (by simp [MergeReport.ids, hmem])
  simp only [MergeReport.ids, assign_new hnew, List.append_assoc]
  refine List.Perm.append_left _ (List.Perm.append_left _ ?_)
  exact List.perm_append_comm

theorem ids_failed (tail : String) :
    ({ report with testFailures := assign id tail report.testFailures } : MergeReport).ids.Perm
      (report.ids ++ [id]) := by
  have hnew : id ∉ report.testFailures.map Prod.fst :=
    fun hmem => h (by simp [MergeReport.ids, hmem])
  simp only [MergeReport.ids, assign_new hnew, List.append_assoc]
  exact .refl _

end Turn

theorem handle_ids (m : WorktreeManager) {flags : Flags} {git : Git} {gate : Gate}
    {pr : PullRequest} {report r : MergeReport} {s s' : State} {goesOn : Bool}
    (hnew : pr.taskId ∉ report.ids)
    (h : handle m flags git gate pr report s = (.ok (r, goesOn), s')) :
    r.ids.Perm (report.ids ++ [pr.taskId]) ∧ (flags.stopOnFailure = false → goesOn = true) := by
  unfold handle at h
  split at h
  · simp at h
  · dsimp only at h
    split at h
    · -- The merge rejected it.
      simp only [Prod.mk.injEq, Except.ok.injEq] at h
      obtain ⟨⟨rfl, rfl⟩, -⟩ := h
      exact ⟨ids_rejected hnew _, fun hgo => by simp [hgo]⟩
    · split at h
      · simp only [Prod.mk.injEq, Except.ok.injEq] at h
        obtain ⟨⟨rfl, rfl⟩, -⟩ := h
        exact ⟨ids_merged, fun _ => rfl⟩
      · split at h
        · simp at h
        · split at h
          · simp only [Prod.mk.injEq, Except.ok.injEq] at h
            obtain ⟨⟨rfl, rfl⟩, -⟩ := h
            exact ⟨ids_merged, fun _ => rfl⟩
          · simp only [Prod.mk.injEq, Except.ok.injEq] at h
            obtain ⟨⟨rfl, rfl⟩, -⟩ := h
            exact ⟨ids_failed hnew _, fun hgo => by simp [hgo]⟩

/-! ## The batch -/

/-- A batch that no failure stops takes up every pull request. -/
theorem batch_ids (m : WorktreeManager) {flags : Flags} {git : Nat → Git} {gate : Nat → Gate}
    {i : Nat} {prs : List PullRequest} {report final : MergeReport} {s : State}
    (hgo : flags.stopOnFailure = false) (hnodup : (report.ids ++ prs.map (·.taskId)).Nodup)
    (hok : (batch m flags git gate i prs report s).2.1 = .ok final) :
    final.ids.Perm (report.ids ++ prs.map (·.taskId)) := by
  induction prs generalizing i report s with
  | nil =>
    obtain rfl : report = final := by simpa [batch] using hok
    simp
  | cons pr prs ih =>
    have hnew : pr.taskId ∉ report.ids := fun hmem =>
      (List.nodup_append.mp hnodup).2.2 _ hmem _ (by simp) rfl
    simp only [batch] at hok
    split at hok
    · simp at hok
    · next hhandle =>
      have hstops := (handle_ids m hnew hhandle).2 hgo
      cases hstops
    · next r s' hhandle =>
      have hturn := (handle_ids m hnew hhandle).1
      have hall : (r.ids ++ prs.map (·.taskId)).Perm (report.ids ++ (pr :: prs).map (·.taskId)) := by
        rw [List.map_cons, List.append_cons]
        exact hturn.append_right _
      exact (ih (hall.nodup_iff.mpr hnodup) hok).trans hall

/-! ## The overlaps -/

theorem common_eq_nil (a b : PullRequest) :
    common a b = [] ↔ ∀ f ∈ a.filesChanged, f ∉ b.filesChanged := by
  have hsame : ∀ f, f ∈ common a b ↔ f ∈ a.filesChanged ∧ f ∈ b.filesChanged := by
    intro f
    rw [common, List.mem_mergeSort, List.mem_dedup, List.mem_filter, decide_eq_true_eq]
  rw [List.eq_nil_iff_forall_not_mem]
  simp only [hsame, not_and]

theorem fileOverlap_eq_nil (prs : List PullRequest) : fileOverlap prs = [] ↔ Apart prs := by
  induction prs with
  | nil => simp [fileOverlap, Apart]
  | cons a rest ih =>
    rw [fileOverlap, List.append_eq_nil_iff, ih]
    unfold Apart
    rw [List.pairwise_cons]
    refine and_congr_left fun _ => ?_
    simp only [List.filterMap_eq_nil_iff, ← common_eq_nil]
    refine forall₂_congr fun b _ => ?_
    split
    · next hnil => simp [hnil]
    · next hsome => simp [hsome]

theorem fileOverlap_first {prs : List PullRequest} {last : PullRequest}
    {o : String × String × List String} (h : o ∈ fileOverlap (prs ++ [last])) :
    o.1 ∈ prs.map (·.taskId) := by
  -- The last pull request is no pair's first.
  induction prs with
  | nil => simp [fileOverlap] at h
  | cons a rest ih =>
    rw [List.cons_append, fileOverlap, List.mem_append] at h
    rcases h with h | h
    · obtain ⟨b, -, hb⟩ := List.mem_filterMap.mp h
      split at hb
      · cases hb
      · obtain rfl := Option.some.inj hb
        exact List.mem_cons_self
    · exact List.mem_cons_of_mem _ (ih h)

theorem rejectOverlaps_ids (overlaps : List (String × String × List String)) {id : String}
    (h : id ∈ (rejectOverlaps overlaps).ids) : ∃ o ∈ overlaps, o.1 = id := by
  have hfold : ∀ (overlaps : List (String × String × List String)) (report : MergeReport),
      id ∈ (overlaps.foldl (fun report o =>
        let text := "file overlap with " ++ o.2.1 ++ ": " ++ reprStrs (o.2.2.take 3)
        { report with rejected := assign o.1 text report.rejected }) report).ids →
      id ∈ report.ids ∨ ∃ o ∈ overlaps, o.1 = id := by
    intro overlaps
    induction overlaps with
    | nil => exact fun report h => .inl h
    | cons o rest ih =>
      intro report h
      rcases ih _ h with h | ⟨o', ho', hid⟩
      · simp only [MergeReport.ids, List.mem_append, mem_assign] at h ⊢
        rcases h with (h | rfl | h) | h
        · exact .inl (.inl (.inl h))
        · exact .inr ⟨o, by simp, rfl⟩
        · exact .inl (.inl (.inr h))
        · exact .inl (.inr h)
      · exact .inr ⟨o', by simp [ho'], hid⟩
  rcases hfold overlaps ⟨[], [], []⟩ h with h | h
  · simp [MergeReport.ids] at h
  · exact h

theorem rejectOverlaps_short {prs : List PullRequest} (hdistinct : (prs.map (·.taskId)).Nodup)
    (hoverlap : fileOverlap prs ≠ []) : ¬ Accounted prs (rejectOverlaps (fileOverlap prs)) := by
  -- A batch that is refused leaves out its last pull request, at least.
  have hne : prs ≠ [] := by
    rintro rfl
    exact hoverlap rfl
  obtain ⟨before, last, rfl⟩ := List.eq_nil_or_concat prs |>.resolve_left hne
  rw [List.concat_eq_append] at *
  intro hall
  have hlast : last.taskId ∈ (rejectOverlaps (fileOverlap (before ++ [last]))).ids :=
    hall.mem_iff.mpr (by simp)
  obtain ⟨o, ho, hid⟩ := rejectOverlaps_ids _ hlast
  have hearlier := fileOverlap_first ho
  rw [hid] at hearlier
  rw [List.map_append, List.nodup_append] at hdistinct
  exact hdistinct.2.2 _ hearlier _ (by simp) rfl

/-! ## The pipeline -/

/-- **When every open pull request is in the report.** A batch with an overlap reports one end of
it. -/
theorem pipeline_accounted_iff (m : WorktreeManager) {flags : Flags} {names : List String}
    {saysOpen : String → Bool} {git : Nat → Git} {gate : Nat → Gate} {s : State}
    {prs : List PullRequest} {report : MergeReport}
    (hgo : flags.stopOnFailure = false) (hlist : listOpenPrs saysOpen s names = .ok prs)
    (hdistinct : (prs.map (·.taskId)).Nodup)
    (hok : (runPipeline m flags names saysOpen git gate s).2.1 = .ok report) :
    Accounted prs report ↔ (flags.rejectOverlap = true → Apart prs) := by
  simp only [runPipeline, hlist] at hok
  rw [← fileOverlap_eq_nil]
  by_cases hoverlap : (flags.rejectOverlap && !(fileOverlap prs).isEmpty) = true
  · rw [if_pos hoverlap, Except.ok.injEq] at hok
    obtain ⟨hreject, hsome⟩ : flags.rejectOverlap = true ∧ fileOverlap prs ≠ [] := by simpa using hoverlap
    subst hok
    exact iff_of_false (rejectOverlaps_short hdistinct hsome) fun h => hsome (h hreject)
  · rw [if_neg hoverlap] at hok
    have hperm := (topologicalOrder_perm prs).map (·.taskId)
    have hbatch :=
      batch_ids m hgo (by simpa [MergeReport.ids] using hperm.nodup_iff.mpr hdistinct) hok
    refine iff_of_true ?_ (by simpa using hoverlap)
    exact hbatch.trans (by simpa [MergeReport.ids] using hperm)

/-! ## Two pull requests that change one file -/

def keepGoing : Flags := ⟨none, 900, true, false⟩

theorem oneWorker_accounted : Accounted [twoCommits] ⟨["t1"], [], []⟩ := by
  have hok : (runPipeline manager keepGoing ["t1"] (fun _ => false) (fun _ => gitOf fun _ => none)
      (fun _ => gateOf (.exited 0 "")) oneWorker).2.1 = .ok ⟨["t1"], [], []⟩ := by
    simp only [runPipeline, oneWorker_listed, topologicalOrder, List.mergeSort_singleton]
    rfl
  exact (pipeline_accounted_iff manager rfl oneWorker_listed (by simp) hok).mpr fun _ => List.pairwise_singleton _ _

def rival : PullRequest := { twoCommits with taskId := "t2", branch := "swarm/t2" }

def rivals : State :=
  { oneWorker with prs := fun t =>
      if t = "t1" then some (.ok twoCommits) else if t = "t2" then some (.ok rival) else none }

/-- The batch is refused, and the report has only one of the two. -/
theorem rival_unreported :
    listOpenPrs (fun _ => false) rivals ["t1", "t2"] = .ok [twoCommits, rival] ∧
      ∃ report, (runPipeline manager keepGoing ["t1",
        "t2"] (fun _ => false) (fun _ => gitOf fun _ => none)
          (fun _ => gateOf (.exited 0 "")) rivals).2.1 = .ok report ∧
        ¬ Accounted [twoCommits, rival] report := by
  have hlist : listOpenPrs (fun _ => false) rivals ["t1", "t2"] = .ok [twoCommits, rival] := rfl
  have hoverlap : fileOverlap [twoCommits, rival] ≠ [] := by
    rw [ne_eq, fileOverlap_eq_nil]
    simp [Apart, twoCommits, rival]
  refine ⟨hlist, _, ?_, rejectOverlaps_short (by simp [twoCommits, rival]) hoverlap⟩
  simp [runPipeline, hlist, keepGoing, hoverlap]

end Swarm.Worktree
