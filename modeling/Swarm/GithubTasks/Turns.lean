import Swarm.GithubTasks

/-!
# Calls of the intake that take turns

A call has the seen file to itself from its first task to its save. Where calls keep to that and
none is lost on the way, the file lists the issues on the board whenever no call has tasks to save,
and each issue gets one task at most.
-/

namespace Swarm.GithubTasks

open Kanban Swarm.Lib

variable {Thread Source : Type*}

/-! ## Turns -/

/-- The call of the thread is between its load and its save. -/
def Files (s : Intake Thread Source) (t : Thread) : Prop :=
  ∃ p issues seen filed, s.calls t = some (p, .filing issues seen filed)

/-- It has filed tasks since its load. -/
def Unsaved (s : Intake Thread Source) (t : Thread) : Prop :=
  ∃ p issues seen filed, s.calls t = some (p, .filing issues seen filed) ∧ filed ≠ []

/-- A load reads the file, and no call has tasks to save then. The first task of an issue is filed
with no other call between its load and its save, and that submit returns or stores nothing. A call
that has filed tasks gets to its save, which succeeds. -/
def InTurn (s : Intake Thread Source) : Label Thread Source → Prop
  | .load _ readable => (readable = true ∨ numbers s.board = []) ∧ ∀ t, ¬ Unsaved s t
  | .submit t _ _ _ how => ∀ p issue rest seen filed number,
    s.calls t = some (p, .filing (issue :: rest) seen filed) → issue.number = some number →
      number ∉ numbers s.board → how = .refused ∨ how = .stored ∧ ∀ t', Files s t' → t' = t
  | .save t succeeds => Unsaved s t → succeeds = true
  | .crash t => ¬ Unsaved s t
  | .poll .. | .fetch .. | .restart _ => True

/-! ## What the file and the calls know -/

/-- The seen file has every issue that is on the board. -/
def Listed (s : Intake Thread Source) : Prop := ∀ n ∈ numbers s.board, n ∈ loadSeen s.file true

/-- A call that files knows every issue on the board, and is the only one once it has filed a
task. -/
structure Synced (s : Intake Thread Source) : Prop where
  known : ∀ t p issues seen filed, s.calls t = some (p, .filing issues seen filed) → ∀ n ∈ numbers s.board, n ∈ seen
  alone : ∀ t, Unsaved s t → ∀ t', Files s t' → t' = t
  settled : (∀ t, ¬ Unsaved s t) → Listed s

variable {s s' : Intake Thread Source}

theorem Unsaved.files {t : Thread} : Unsaved s t → Files s t := by
  rintro ⟨p, issues, seen, filed, ht, -⟩
  exact ⟨p, issues, seen, filed, ht⟩

theorem unsaved_congr {t : Thread} (h : s'.calls t = s.calls t) : Unsaved s' t ↔ Unsaved s t := by
  simp only [Unsaved, h]

theorem files_congr {t : Thread} (h : s'.calls t = s.calls t) : Files s' t ↔ Files s t := by
  simp only [Files, h]

theorem Synced.of_numbers (h : Synced s) (hcalls : s'.calls = s.calls) (hfile : s'.file = s.file)
    (hnumbers : numbers s'.board = numbers s.board) : Synced s' where
  known t p issues seen filed ht := by
    rw [hnumbers]
    exact h.known t p issues seen filed (by rwa [hcalls] at ht)
  alone t ht t' ht' := h.alone t ((unsaved_congr (by rw [hcalls])).mp ht) t' ((files_congr (by rw [hcalls])).mp ht')
  settled hnone := by
    have hlisted := h.settled fun t ht => hnone t ((unsaved_congr (by rw [hcalls])).mpr ht)
    rwa [Listed, hnumbers, hfile]

theorem Synced.of_call (h : Synced s) (hboard : s'.board = s.board) (hfile : s'.file = s.file)
    {t : Thread} (hothers : ∀ t', t' ≠ t → s'.calls t' = s.calls t') (hbefore : ¬ Unsaved s t)
    (hafter : ¬ Unsaved s' t)
    (hknown : ∀ p issues seen filed, s'.calls t = some (p, .filing issues seen filed) →
      ∀ n ∈ numbers s.board, n ∈ seen)
    (hwaits : Files s' t → ∀ t', ¬ Unsaved s t') : Synced s' := by
  have hunsaved : ∀ t', Unsaved s' t' ↔ Unsaved s t' := fun t' => by
    by_cases ht' : t' = t
    · subst ht'
      exact iff_of_false hafter hbefore
    · exact unsaved_congr (hothers t' ht')
  refine ⟨fun t' p issues seen filed ht' => ?_, fun t' ht' u hu => ?_, fun hnone => ?_⟩
  · rw [hboard]
    by_cases heq : t' = t
    · subst heq
      exact hknown p issues seen filed ht'
    · exact h.known t' p issues seen filed (by rwa [hothers t' heq] at ht')
  · by_cases heq : u = t
    · subst heq
      exact absurd ((hunsaved t').mp ht') (hwaits hu t')
    · exact h.alone t' ((hunsaved t').mp ht') u ((files_congr (hothers u heq)).mp hu)
  · have hlisted := h.settled fun t' ht' => hnone t' ((hunsaved t').mpr ht')
    rwa [Listed, hboard, hfile]

theorem fileOne_turn (h : Synced s) {t : Thread} {id : String} {createdAt ts : ℚ} {how : Submission}
    {p : Source} {issue : Issue} {rest : List Issue} {seen : Finset Int} {filed : List String}
    (hturn : InTurn s (.submit t id createdAt ts how))
    (hcall : s.calls t = some (p, .filing (issue :: rest) seen filed)) (src : GitHubWorkSource) :
    fileOne src issue id createdAt ts how s.board seen filed = (s.board, seen, filed) ∨
      how = .stored ∧ (∀ t', Files s t' → t' = t) ∧ ∃ number, number ∉ numbers s.board ∧
        numbers (fileOne src issue id createdAt ts how s.board seen filed).1 =
          numbers s.board ++ [number] ∧
        (fileOne src issue id createdAt ts how s.board seen filed).2.1 = insert number seen ∧
        (fileOne src issue id createdAt ts how s.board seen filed).2.2 ≠ [] := by
  rcases fileOne_spec src issue id createdAt ts how s.board seen filed with
    ⟨number, hnumber, hseen, hhow, -, hnumbers, hstored⟩ | ⟨-, hsame⟩
  · have hfresh : number ∉ numbers s.board := mt (h.known t p _ seen filed hcall number) hseen
    obtain ⟨rfl, honly⟩ :=
      (hturn p issue rest seen filed number hcall hnumber hfresh).resolve_left hhow
    exact .inr ⟨rfl, honly, number, hfresh, hnumbers, hstored rfl⟩
  · exact .inl hsame

/-! ## One step -/

variable [DecidableEq Thread] [DecidableEq Source] {sources : Source → GitHubWorkSource}

omit [DecidableEq Source] in
theorem unsaved_setCall {t : Thread} {call : Option (Source × Call)} :
    Unsaved (setCall s t call) t ↔ ∃ p issues seen filed,
      call = some (p, .filing issues seen filed) ∧ filed ≠ [] := by
  simp [Unsaved, setCall]

omit [DecidableEq Source] in
theorem files_setCall {t : Thread} {call : Option (Source × Call)} :
    Files (setCall s t call) t ↔ ∃ p issues seen filed,
      call = some (p, .filing issues seen filed) := by
  simp [Files, setCall]

omit [DecidableEq Source] in
theorem Files.moved {t u : Thread} {call : Option (Source × Call)} (h : Files s' u)
    (hcalls : s'.calls = Function.update s.calls t call) : u = t ∨ Files s u := by
  by_cases heq : u = t
  · exact .inl heq
  · exact .inr ((files_congr (by rw [hcalls, Function.update_of_ne heq])).mp h)

omit [DecidableEq Source] in
theorem Synced.moves (h : Synced s) {t : Thread} {call : Option (Source × Call)}
    (hbefore : ¬ Unsaved s t)
    (hcall : ∀ p issues seen filed, call ≠ some (p, .filing issues seen filed)) :
    Synced (setCall s t call) := by
  refine h.of_call rfl rfl (fun t' hne => Function.update_of_ne hne _ _) hbefore ?_
    (fun p issues seen filed ht => ?_) ?_
  · rw [unsaved_setCall]
    rintro ⟨p, issues, seen, filed, rfl, -⟩
    exact hcall p issues seen filed rfl
  · exact absurd (by simpa [setCall] using ht) (hcall p issues seen filed)
  · rw [files_setCall]
    rintro ⟨p, issues, seen, filed, rfl⟩
    exact absurd rfl (hcall p issues seen filed)

omit [DecidableEq Source] in
theorem Synced.passed (h : Synced s) {t : Thread} {p : Source} {issue : Issue} {rest : List Issue}
    {seen : Finset Int} {filed : List String}
    (hcall : s.calls t = some (p, .filing (issue :: rest) seen filed))
    (rest' : List Issue) :
    Synced (setCall s t (some (p, .filing rest' seen filed))) := by
  have hkept : ∀ t', Unsaved (setCall s t (some (p, .filing rest' seen filed))) t' ↔ Unsaved s t' :=
    fun t' => by
    by_cases heq : t' = t
    · subst heq
      simp [Unsaved, setCall, hcall]
    · exact unsaved_congr (Function.update_of_ne heq _ _)
  refine ⟨fun t' p' issues' seen' filed' ht' => ?_, fun t' ht' u hu => ?_, fun hnone => ?_⟩
  · by_cases heq : t' = t
    · subst heq
      simp only [setCall, Function.update_self, Option.some.injEq, Prod.mk.injEq, Call.filing.injEq] at ht'
      obtain ⟨-, -, rfl, -⟩ := ht'
      exact h.known t' p _ seen filed hcall
    · exact h.known t' p' issues' seen' filed' (by simpa [setCall, heq] using ht')
  · rcases hu.moved (t := t) rfl with rfl | hu
    · exact h.alone t' ((hkept t').mp ht') u ⟨_, _, _, _, hcall⟩
    · exact h.alone t' ((hkept t').mp ht') u hu
  · exact h.settled fun t' ht' => hnone t' ((hkept t').mpr ht')

omit [DecidableEq Source] in
theorem Synced.filed (h : Synced s) {b : Board} {t : Thread} {p : Source} {issues : List Issue}
    {seen : Finset Int} {filed filed' : List String}
    (hcall : s.calls t = some (p, .filing issues seen filed)) (honly : ∀ t', Files s t' → t' = t)
    {number : Int} (hnumbers : numbers b = numbers s.board ++ [number])
    (rest : List Issue) (hfiled : filed' ≠ []) :
    Synced (setCall { s with board := b } t (some (p,
      .filing rest (insert number seen) filed'))) := by
  have hout : ∀ t', Files (setCall { s with board := b } t (some (p, .filing rest (insert number seen) filed'))) t' →
      t' = t := fun t' ht' => (ht'.moved (s := s) rfl).elim id (honly t')
  refine ⟨fun t' p' issues' seen' filed' ht' n hn => ?_, fun t' ht' u hu => ?_, fun hnone => ?_⟩
  · obtain rfl := hout t' ⟨_, _, _, _, ht'⟩
    simp only [setCall, Function.update_self, Option.some.injEq, Prod.mk.injEq, Call.filing.injEq] at ht'
    obtain ⟨-, -, rfl, -⟩ := ht'
    simp only [setCall, hnumbers, List.mem_append, List.mem_singleton] at hn
    exact Finset.mem_insert.mpr (hn.symm.imp_right (h.known t' p issues seen filed hcall n))
  · exact (hout u hu).trans (hout t' ht'.files).symm
  · exact absurd (unsaved_setCall.mpr ⟨_, _, _, _, rfl, hfiled⟩) (hnone t)

omit [DecidableEq Source] in
theorem Synced.saved (h : Synced s) {t : Thread} {p : Source} {issues : List Issue}
    {seen : Finset Int} {filed : List String}
    (hcall : s.calls t = some (p, .filing issues seen filed)) (hfiled : filed ≠ []) :
    Synced (setCall { s with file := saveSeen seen } t none) := by
  have hout : ∀ t', ¬ Files (setCall { s with file := saveSeen seen } t none) t' := fun t' ht' => by
    rcases ht'.moved (s := s) rfl with rfl | hold
    · simp [files_setCall] at ht'
    · obtain rfl := h.alone t ⟨_, _, _, _, hcall, hfiled⟩ t' hold
      simp [files_setCall] at ht'
  refine ⟨fun t' p' issues' seen' filed' ht' => absurd ⟨_, _, _, _, ht'⟩ (hout t'),
    fun t' ht' => absurd ht'.files (hout t'), fun _ n hn => ?_⟩
  show n ∈ loadSeen (saveSeen seen) true
  rw [loadSeen_saveSeen]
  exact h.known t p issues seen filed hcall n hn

theorem synced_step (h : Synced s) {l : Label Thread Source} (hl : InTurn s l)
    (hstep : step sources l s = some s') :
    Synced s' := by
  cases l with
  | poll t p now =>
    simp only [step] at hstep
    split at hstep
    · next hfree =>
      obtain rfl := Option.some.inj hstep
      split
      · exact h.moves (by simp [Unsaved, hfree]) (by simp)
      · exact h
    · cases hstep
  | fetch t available issues =>
    simp only [step] at hstep
    split at hstep
    · next p now hpolling =>
      obtain rfl := Option.some.inj hstep
      have hnoted : Synced { s with lastPoll := Function.update s.lastPoll p now } :=
        h.of_numbers rfl rfl rfl
      exact hnoted.moves (by simp [Unsaved, hpolling]) (by intros; split <;> simp)
    · cases hstep
  | load t readable =>
    obtain ⟨hread, hnone⟩ := hl
    simp only [step] at hstep
    split at hstep
    · next p issues hfetched =>
      obtain rfl := Option.some.inj hstep
      -- What is read is the whole file, which then lists the board.
      have hknown : ∀ n ∈ numbers s.board, n ∈ loadSeen s.file readable := by
        rcases hread with rfl | hempty
        · exact h.settled hnone
        · simp [hempty]
      refine h.of_call rfl rfl (fun t' hne => Function.update_of_ne hne _ _) (hnone t) ?_ ?_ fun _ => hnone
      · simp [unsaved_setCall]
      · rintro p' issues' seen filed ht
        simp only [setCall, Function.update_self, Option.some.injEq, Prod.mk.injEq, Call.filing.injEq] at ht
        obtain ⟨-, -, rfl, -⟩ := ht
        exact hknown
    · cases hstep
  | submit t id createdAt ts how =>
    simp only [step] at hstep
    split at hstep
    · next p issue rest seen filed hcall =>
      obtain rfl := Option.some.inj hstep
      -- The issue is passed over, or its first task is filed.
      rcases fileOne_turn h hl hcall (sources p) with hsame | ⟨-, honly, number, -, hnumbers, hseen, hfiled⟩
      · rw [hsame]
        exact h.passed hcall rest
      · rw [hseen]
        exact h.filed hcall honly hnumbers rest hfiled
    · cases hstep
  | save t succeeds =>
    simp only [step] at hstep
    split at hstep
    · next p seen filed hcall =>
      split at hstep
      · next hunsaved =>
        obtain rfl := Option.some.inj hstep
        -- Nothing to save, or a save that fails: then nothing was filed.
        have hbefore : ¬ Unsaved s t := by
          intro hun
          obtain ⟨p', issues', seen', filed', ht, hfiled⟩ := hun
          have hsucceeds := hl ⟨p', issues', seen', filed', ht, hfiled⟩
          rw [hcall] at ht
          simp only [Option.some.injEq, Prod.mk.injEq, Call.filing.injEq] at ht
          simp [hsucceeds, ht, hfiled] at hunsaved
        exact h.moves hbefore (by simp)
      · next hunsaved =>
        obtain rfl := Option.some.inj hstep
        exact h.saved hcall fun hnil => hunsaved (by simp [hnil])
    · cases hstep
  | crash t =>
    obtain rfl := Option.some.inj hstep
    exact h.moves hl (by simp)
  | restart p =>
    obtain rfl := Option.some.inj hstep
    exact h.of_numbers rfl rfl rfl

/-- The one task of an issue is filed where the board has none. -/
theorem once_step (h : Synced s) (hgood : Once s) {l : Label Thread Source} (hl : InTurn s l)
    (hstep : step sources l s = some s') : Once s' := by
  rcases step_cases hstep with ⟨t, id, createdAt, ts, how, p, issue, rest, seen, filed, rfl, hcall, rfl⟩ | hboard
  · rcases fileOne_turn h hl hcall (sources p) with hsame | ⟨-, -, number, hfresh, hnumbers, -⟩
    · simpa only [Once, setCall, hsame] using hgood
    · simp only [Once, setCall, hnumbers]
      refine List.nodup_append.mpr ⟨hgood, List.nodup_singleton number, fun n hn m hm heq => ?_⟩
      obtain rfl := List.mem_singleton.mp hm
      exact hfresh (heq ▸ hn)
  · rwa [Once, hboard]

/-! ## Every run -/

omit [DecidableEq Thread] [DecidableEq Source] in
theorem synced_start {b : Board} {file : SeenFile}
    (hfile : ∀ n ∈ numbers b, n ∈ loadSeen file true) :
    Synced ({ start b with file := file } : Intake Thread Source) where
  known t p issues seen filed ht := by simp [start] at ht
  alone t ht := by simp [Unsaved, start] at ht
  settled _ := hfile

/-- **Each issue has one task at most**, in every state of a run whose calls take turns, from a
home whose file has the issues on the board. -/
theorem once_of_turns (sources : Source → GitHubWorkSource) (b : Board) (file : SeenFile)
    (hb : (numbers b).Nodup) (hfile : ∀ n ∈ numbers b, n ∈ loadSeen file true)
    (labels : List (Label Thread Source))
    (hturns : ∀ taken ∈ path (step sources) { start b with file := file } labels,
      InTurn taken.before taken.label) :
    ∀ taken ∈ path (step sources) { start b with file := file } labels, Once taken.after := by
  have hstep : ∀ (s : Intake Thread Source) l s', Synced s ∧ Once s → InTurn s l → step sources l s = some s' →
      Synced s' ∧ Once s' := fun s l s' h hl hnext => ⟨synced_step h.1 hl hnext, once_step h.1 h.2 hl hnext⟩
  exact fun taken htaken => (path_invariant hstep _ labels ⟨synced_start hfile, hb⟩ hturns taken htaken).2

/-! ## One thread -/

/-- What the steps of a single thread have to be, with no crash among them. -/
def Orderly : Label Unit Source → Prop
  | .load _ readable => readable = true
  | .submit _ _ _ _ how => how = .refused ∨ how = .stored
  | .save _ succeeds => succeeds = true
  | .crash _ => False
  | .poll .. | .fetch .. | .restart _ => True

theorem inTurn_of_orderly {s s' : Intake Unit Source} {l : Label Unit Source} (hl : Orderly l)
    (hstep : step sources l s = some s') : InTurn s l := by
  -- One thread takes turns with nobody.
  cases l with
  | load t readable =>
    simp only [step] at hstep
    split at hstep
    · next p issues hfetched => exact ⟨.inl hl, fun t' => by simp [Unsaved, hfetched]⟩
    · cases hstep
  | submit t id createdAt ts how =>
    exact fun _ _ _ _ _ _ _ _ _ => hl.imp_right fun h => ⟨h, fun _ _ => rfl⟩
  | save t succeeds => exact fun _ => hl
  | crash t => exact hl.elim
  | poll | fetch | restart => trivial

def source : GitHubWorkSource := ⟨true, "builder", 5, 60⟩

def flakyIssue : Issue := ⟨some 7, some "the suite is flaky", none, none⟩

/-- A call up to its first submit. -/
def firstSubmit (id : String) (now : ℚ) : List (Label Unit Unit) :=
  [.poll () () now, .fetch () true [flakyIssue], .load () true, .submit () id now now .stored]

/-- The second call finds the issue of the first in the file. -/
def twoPolls : List (Label Unit Unit) :=
  firstSubmit "t1" 100 ++ [.save () true] ++ firstSubmit "t2" 200 ++ [.save () true]

theorem saved_once :
    (final (step fun _ => source) (start Board.empty) twoPolls).board.tasks.map (·.id) = ["t1"] ∧
      ∀ taken ∈ path (step fun _ => source) (start Board.empty) twoPolls, Once taken.after := by
  have horderly : ∀ l ∈ twoPolls, Orderly l := by simp [twoPolls, firstSubmit, Orderly]
  refine ⟨by decide +kernel, once_of_turns (fun _ => source) Board.empty none (by decide) (by decide) twoPolls ?_⟩
  exact path_steps (fun _ _ _ _ _ _ => trivial) (fun _ _ _ (_ : True) hl hstep => inTurn_of_orderly hl hstep) _ _
    trivial fun taken htaken => horderly taken.label (label_mem_of_path htaken)

/-! ## A crash before the save -/

instance (s : Intake Thread Source) : Decidable (Once s) :=
  inferInstanceAs (Decidable (List.Nodup _))

theorem crash_files_twice :
    ¬ ∀ taken ∈ path (step fun _ => source) (start Board.empty)
      (firstSubmit "t1" 100 ++ [.crash (), .restart ()] ++ firstSubmit "t2" 200),
        Once taken.after := by
  decide +kernel

end Swarm.GithubTasks
