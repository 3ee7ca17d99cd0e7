import Swarm.GithubTasks.Turns
import Swarm.Perpetual.Ledger
import Swarm.Perpetual.Order

/-!
# Those who work on an issue

The intake files issues on the board from which a team of loops claims. The two machines share that
board, and their steps come in any order.
-/

namespace Swarm.GithubTasks.Workers

open Kanban Supervisor Swarm.Lib
open Perpetual.Team (TeamState Loop Pc Claim Holds openStatus releaseFields)

/-! ## The issue of a task -/

/-- `metadata["github_issue_number"]` of a task. -/
def issueOf (task : Kanban.Task) : Option Int :=
  match task.metadata with
  | .obj e =>
    match Json.get e "github_issue_number" with
    | .int n => some n
    | _ => none
  | _ => none

/-! ## The machine -/

/-- `finished` is a ghost: the issues whose dispatches came to an outcome. -/
structure State (N : Nat) (Thread Source : Type*) where
  intake : Intake Thread Source
  loops : Fin N → Loop
  claims : List Claim
  finished : List Int

variable {N : Nat} {Thread Source : Type*}

/-- The team as it is without the intake. -/
def State.team (s : State N Thread Source) : TeamState N := ⟨s.intake.board, s.loops, s.claims⟩

inductive Label (N : Nat) (Thread Source : Type*)
  | team (l : Perpetual.Team.Label N)
  | intake (l : GithubTasks.Label Thread Source)

/-- The issue that a write-back brings to an outcome. -/
def outcomeOf (rosters : Fin N → Roster) (s : TeamState N) : Perpetual.Team.Label N → List Int
  | .writeBack i (.ok _) _ =>
    match (s.loops i).pc with
    | .holding claimed =>
      if (pickHead (rosters i) claimed.requiredHead).isSome then (issueOf claimed).toList else []
    | _ => []
  | _ => []

variable [DecidableEq Thread] [DecidableEq Source]

def step (cfgs : Fin N → Supervisor.Config) (rosters : Fin N → Roster)
    (sources : Source → GitHubWorkSource) (l : Label N Thread Source) (s : State N Thread Source) :
    Option (State N Thread Source) :=
  match l with
  | .team l => (Perpetual.Team.step cfgs rosters l s.team).map fun t =>
      ⟨{ s.intake with board := t.board }, t.loops, t.claims, s.finished ++ outcomeOf rosters s.team l⟩
  | .intake l => (GithubTasks.step sources l s.intake).map fun i => { s with intake := i }

def start (b : Board) : State N Thread Source :=
  ⟨GithubTasks.start b, fun _ => ⟨.outside, 0, 0⟩, [], []⟩

/-- The others submit pending tasks of no issue, an outcome does not ask for another dispatch, and
the calls of `generate` take turns. -/
def Permitted (s : State N Thread Source) : Label N Thread Source → Prop
  | .team (.submit task _) => task.status = .pending ∧ issueNumber task.toRow = none
  | .team (.writeBack _ answer _) =>
    ∀ o, answer = .ok o → o.status ≠ .inProgress ∧ o.status ≠ .pending
  | .team (.peek _) | .team (.claim _ _) => True
  | .intake l => InTurn s.intake l

/-- A loop holds a task of the issue. -/
def WorksOn (s : State N Thread Source) (i : Fin N) (n : Int) : Prop :=
  ∃ claimed, (s.loops i).pc = .holding claimed ∧ issueOf claimed = some n

theorem mem_outcomeOf {rosters : Fin N → Roster} {s : TeamState N} {i : Fin N} {answer : Answer}
    {t : Times} {claimed : Kanban.Task} {n : Int} (hpc : (s.loops i).pc = .holding claimed)
    (hn : n ∈ outcomeOf rosters s (.writeBack i answer t)) :
    ∃ o head, answer = .ok o ∧ pickHead (rosters i) claimed.requiredHead = some head ∧
      issueOf claimed = some n := by
  cases answer with
  | error e => simp [outcomeOf] at hn
  | ok o =>
    simp only [outcomeOf, hpc] at hn
    split at hn
    · next hsome =>
      obtain ⟨head, hhead⟩ := Option.isSome_iff_exists.mp hsome
      exact ⟨o, head, rfl, hhead, by simpa using hn⟩
    · simp at hn

theorem outcomeOf_nodup (rosters : Fin N → Roster) (s : TeamState N) (l : Perpetual.Team.Label N) :
    (outcomeOf rosters s l).Nodup := by
  unfold outcomeOf
  split
  · split
    · split
      · cases issueOf _ <;> simp
      · exact List.nodup_nil
    · exact List.nodup_nil
  · exact List.nodup_nil

/-! ## The numbers on the board -/

theorem numbers_unique {b : Board} (h : (numbers b).Nodup) {r x : Row} {n : Int} (hr : r ∈ b.tasks)
    (hx : x ∈ b.tasks) (hrn : issueNumber r = some n) (hxn : issueNumber x = some n) : r = x := by
  have hpairs : b.tasks.Pairwise fun r x => ∀ n, issueNumber r = some n → issueNumber x ≠ some n := by
    refine (List.pairwise_filterMap.mp h).imp fun hne n hrn hxn => ?_
    exact hne n hrn n hxn rfl
  have : Std.Symm fun r x : Row => ∀ n, issueNumber r = some n → issueNumber x ≠ some n :=
    ⟨fun _ _ hne n hxn hrn => hne n hrn hxn⟩
  by_contra hne
  exact hpairs.forall hr hx hne n hrn hxn

theorem issueNumber_congr {r x : Row} (h : r.metadata = x.metadata) :
    issueNumber r = issueNumber x := by
  simp only [issueNumber, h]

/-- One row is written, and keeps its id and its number. -/
structure Writes (b b' : Board) (id : String) (f : Row → Row) : Prop where
  tasks : b'.tasks = b.tasks.map fun x => if x.id = id then f x else x
  keeps : ∀ x, (f x).id = x.id ∧ issueNumber (f x) = issueNumber x

section Writes

variable {b b' : Board} {id : String} {f : Row → Row}

theorem Writes.numbers (h : Writes b b' id f) : numbers b' = numbers b := by
  rw [GithubTasks.numbers, GithubTasks.numbers, h.tasks, List.filterMap_map]
  refine List.filterMap_congr fun x _ => ?_
  simp only [Function.comp]
  split
  · exact (h.keeps x).2
  · rfl

theorem Writes.mem (h : Writes b b' id f) {x : Row} (hx : x ∈ b.tasks) :
    ∃ y ∈ b'.tasks, y.id = x.id ∧ issueNumber y = issueNumber x ∧ (x.id ≠ id → y = x) ∧
      (x.id = id → y = f x) := by
  refine ⟨if x.id = id then f x else x, ?_, ?_⟩
  · rw [h.tasks]
    exact List.mem_map_of_mem hx
  · split
    · next hid => exact ⟨(h.keeps x).1, (h.keeps x).2, fun hne => absurd hid hne, fun _ => rfl⟩
    · next hid => exact ⟨rfl, rfl, fun _ => rfl, fun heq => absurd heq hid⟩

end Writes

theorem writes_claimed (b : Board) (workerId : String) (now ts : ℚ) (r : Row) :
    Writes b (claimedBoard b workerId now ts r) r.id (claimRow workerId now) :=
  ⟨rfl, fun _ => ⟨rfl, rfl⟩⟩

theorem metadata_releaseFields (roster : Roster) (answer : Answer) (claimed : Kanban.Task)
    (t : Times) (x : Row) :
    (setAll (releaseFields roster answer claimed t) x).metadata = x.metadata := by
  unfold releaseFields
  split
  · simp [setAll, failedFields, Field.set]
  · split
    · simp [setAll, outcomeFields, Field.set]
    · split <;> simp [setAll, failedFields, Field.set]

/-! ## The invariant -/

/-- The invariants of both machines, and what ties the finished issues to the board. -/
structure Inv (s : State N Thread Source) : Prop where
  team : Perpetual.Team.Inv s.team
  synced : Synced s.intake
  once : Once s.intake
  tied : ∀ i claimed, (s.loops i).pc = .holding claimed →
    ∃ r ∈ s.intake.board.tasks, r.id = claimed.id ∧ issueNumber r = issueOf claimed
  closed : ∀ n ∈ s.finished, ∃ r ∈ s.intake.board.tasks, issueNumber r = some n ∧ ¬ openStatus r.status
  distinct : s.finished.Nodup

section Steps

variable {cfgs : Fin N → Supervisor.Config} {rosters : Fin N → Roster}
    {sources : Source → GitHubWorkSource}
variable {s s' : State N Thread Source}

omit [DecidableEq Thread] [DecidableEq Source] in
theorem Inv.grows (h : Inv s) (hteam : Perpetual.Team.Inv s'.team) (hsynced : Synced s'.intake)
    (honce : Once s'.intake)
    (hloops : ∀ i claimed, (s'.loops i).pc = .holding claimed → (s.loops i).pc = .holding claimed)
    (hfinished : s'.finished = s.finished)
    (hrows : ∀ r ∈ s.intake.board.tasks, r ∈ s'.intake.board.tasks) :
    Inv s' where
  team := hteam
  synced := hsynced
  once := honce
  tied i claimed hpc := by
    obtain ⟨r, hr, hrest⟩ := h.tied i claimed (hloops i claimed hpc)
    exact ⟨r, hrows r hr, hrest⟩
  closed n hn := by
    rw [hfinished] at hn
    obtain ⟨r, hr, hrest⟩ := h.closed n hn
    exact ⟨r, hrows r hr, hrest⟩
  distinct := hfinished ▸ h.distinct

theorem Inv.submit (h : Inv s) {task : Kanban.Task} {ts : ℚ}
    (hpermitted : task.status = .pending ∧ issueNumber task.toRow = none)
    (hstep : step cfgs rosters sources (.team (.submit task ts)) s = some s') : Inv s' := by
  obtain rfl := Option.some.inj hstep
  have hnumbers : numbers (Kanban.submit s.intake.board task ts).2 = numbers s.intake.board := by
    rcases submit_cases s.intake.board task ts with hsame | ⟨-, htasks, -⟩
    · rw [hsame]
    · simp [numbers, htasks, hpermitted.2]
  refine h.grows (Perpetual.Team.submit_inv s.team task ts hpermitted.1 h.team)
    (h.synced.of_numbers rfl rfl hnumbers) ?_ (fun _ _ hpc => hpc) (List.append_nil _) fun r hr => ?_
  · rw [Once]
    exact hnumbers ▸ h.once
  · rcases submit_cases s.intake.board task ts with hsame | ⟨-, htasks, -⟩
    · exact hsame.symm ▸ hr
    · exact htasks.symm ▸ List.mem_append_left _ hr

omit [DecidableEq Thread] [DecidableEq Source] in
theorem Inv.same (h : Inv s) {t : TeamState N} (hteam : Perpetual.Team.Inv t)
    (hboard : t.board = s.intake.board)
    (hloops : ∀ i claimed, (t.loops i).pc = .holding claimed → (s.loops i).pc = .holding claimed) :
    Inv (⟨{ s.intake with board := t.board }, t.loops, t.claims,
      s.finished ++ []⟩ : State N Thread Source) := by
  refine h.grows hteam (h.synced.of_numbers rfl rfl (by rw [hboard])) ?_ hloops (List.append_nil _) ?_
  · simpa only [Once, hboard] using h.once
  · simp [hboard]

theorem holding_goto {t : TeamState N} {i j : Fin N} {pc : Pc} {claimed : Kanban.Task}
    (hpc : ∀ held, pc ≠ .holding held) (hheld : ((t.goto i pc).loops j).pc = .holding claimed) :
    (t.loops j).pc = .holding claimed := by
  by_cases hj : j = i
  · subst hj
    exact absurd (by simpa [TeamState.goto] using hheld) (hpc claimed)
  · simpa [TeamState.goto, hj] using hheld

theorem Inv.peek (h : Inv s) {i : Fin N}
    (hstep : step cfgs rosters sources (.team (.peek i)) s = some s') :
    Inv s' := by
  obtain ⟨t, ht, rfl⟩ := Option.map_eq_some_iff.mp hstep
  have hteam := Perpetual.Team.peek_inv cfgs rosters s.team t i ht h.team
  refine h.same hteam (Perpetual.Team.move_peek cfgs rosters ht) fun j claimed hheld => ?_
  simp only [Perpetual.Team.step] at ht
  split at ht
  · split at ht
    · cases ht
      exact holding_goto (by simp) hheld
    all_goals
      cases ht
      exact hheld
  · cases ht

omit [DecidableEq Thread] [DecidableEq Source] in
theorem Inv.written (h : Inv s) {b : Board} {id : String} {f : Row → Row}
    (hwrites : Writes s.intake.board b id f) :
    Synced { s.intake with board := b } ∧ Once { s.intake with board := b } ∧
      ∀ i claimed, (s.loops i).pc = .holding claimed →
        ∃ r ∈ b.tasks, r.id = claimed.id ∧ issueNumber r = issueOf claimed := by
  refine ⟨h.synced.of_numbers rfl rfl hwrites.numbers, ?_, fun i claimed hpc => ?_⟩
  · rw [Once, hwrites.numbers]
    exact h.once
  · obtain ⟨r, hr, hid, hnumber⟩ := h.tied i claimed hpc
    obtain ⟨y, hy, hyid, hynumber, -⟩ := hwrites.mem hr
    exact ⟨y, hy, hyid.trans hid, hynumber.trans hnumber⟩

omit [DecidableEq Thread] [DecidableEq Source] in
theorem Inv.still_closed (h : Inv s) {b : Board} {r : Row} {f : Row → Row}
    (hwrites : Writes s.intake.board b r.id f) (hr : r ∈ s.intake.board.tasks)
    (hopen : openStatus r.status) {n : Int} (hn : n ∈ s.finished) :
    ∃ x ∈ b.tasks, issueNumber x = some n ∧ ¬ openStatus x.status := by
  -- A write to a task that waits or runs leaves the finished ones.
  obtain ⟨x, hx, hnumber, hclosed⟩ := h.closed n hn
  obtain ⟨y, hy, -, -, hother, -⟩ := hwrites.mem hx
  have hne : x.id ≠ r.id := fun hid => hclosed (row_unique _ x r hx hr hid ▸ hopen)
  obtain rfl := hother hne
  exact ⟨y, hy, hnumber, hclosed⟩

theorem Inv.claim (h : Inv s) {i : Fin N} {t : Times}
    (hstep : step cfgs rosters sources (.team (.claim i t)) s = some s') : Inv s' := by
  obtain ⟨t', ht, rfl⟩ := Option.map_eq_some_iff.mp hstep
  have hteam := Perpetual.Team.claim_inv cfgs rosters s.team t' i t ht h.team
  simp only [Perpetual.Team.step] at ht
  split at ht
  · next requiredHead hpc =>
    rcases claimOne_cases s.team.board (some requiredHead) ((cfgs i).teammateName ++ ":" ++ requiredHead)
      t.startedAt t.claimTs with ⟨-, hboard, hres⟩ | ⟨r, hr, -, hpending, -, -, heq⟩
    · split at ht
      · next heq => exact absurd (congrArg Prod.fst heq) (hres _)
      all_goals
        next heq =>
          cases ht
          exact h.same hteam ((congrArg Prod.snd heq).symm.trans hboard) fun j claimed => holding_goto (by simp)
    · simp only [heq, Option.some.injEq] at ht
      subst ht
      -- Only the claimed row changes, from pending to in progress.
      have hwrites :=
        writes_claimed s.team.board ((cfgs i).teammateName ++ ":" ++ requiredHead) t.startedAt t.claimTs r
      obtain ⟨hsynced, honce, htied⟩ := h.written hwrites
      refine ⟨hteam, hsynced, honce, fun j claimed hheld => ?_, fun n hn => ?_, ?_⟩
      · by_cases hj : j = i
        · subst hj
          obtain ⟨y, hy, -, -, -, htaken⟩ := hwrites.mem hr
          obtain rfl := htaken rfl
          obtain rfl : (claimRow ((cfgs j).teammateName ++ ":" ++ requiredHead) t.startedAt r).toTask .inProgress =
            claimed := by simpa [TeamState.goto] using hheld
          exact ⟨_, hy, rfl, rfl⟩
        · exact htied j claimed (by simpa [TeamState.goto, State.team, hj] using hheld)
      · exact h.still_closed hwrites hr (.inl hpending) (by simpa [outcomeOf] using hn)
      · simpa [outcomeOf] using h.distinct
  · cases ht

theorem Inv.writeBack (h : Inv s) {i : Fin N} {answer : Answer} {t : Times}
    (hanswer : ∀ o, answer = .ok o → o.status ≠ .inProgress ∧ o.status ≠ .pending)
    (hstep : step cfgs rosters sources (.team (.writeBack i answer t)) s = some s') : Inv s' := by
  obtain ⟨t', ht, rfl⟩ := Option.map_eq_some_iff.mp hstep
  have hteam :=
    Perpetual.Team.writeBack_inv cfgs rosters s.team t' i answer t (fun o ho => (hanswer o ho).1) ht h.team
  simp only [Perpetual.Team.step] at ht
  split at ht
  · next claimed hpc =>
    obtain ⟨r, hr, hid, hnumber⟩ := h.tied i claimed hpc
    obtain ⟨x, hx, hxid, hlive⟩ := h.team.held i claimed.id ⟨claimed, hpc, rfl⟩
    obtain rfl : x = r := row_unique _ x r hx hr (hxid.trans hid.symm)
    have hsel : s.team.board.select claimed.id = some x := (select_eq_some _ _ _).mpr ⟨hx, hxid⟩
    obtain ⟨htasks, -⟩ := Perpetual.Team.release_released (rosters i) answer claimed t
      ⟨s.team.board, (s.team.loops i).costSoFarUsd, (s.team.loops i).turn, []⟩ x hsel
    have hwrites : Writes s.intake.board _ x.id _ := ⟨hid.symm ▸ htasks, fun y =>
      ⟨setAll_id _ y, issueNumber_congr (metadata_releaseFields (rosters i) answer claimed t y)⟩⟩
    obtain ⟨hsynced, honce, htied⟩ := h.written hwrites
    cases ht
    refine ⟨hteam, hsynced, honce, fun j held hheld => ?_, fun n hn => ?_, ?_⟩
    · have hj : j ≠ i := by
        rintro rfl
        simp at hheld
      exact htied j held (by simpa [State.team, hj] using hheld)
    · rcases List.mem_append.mp hn with hn | hn
      · exact h.still_closed hwrites hx (.inr hlive) hn
      · obtain ⟨o, head, rfl, hhead, hissue⟩ := mem_outcomeOf hpc hn
        obtain ⟨y, hy, -, hynumber, -, hwritten⟩ := hwrites.mem hx
        refine ⟨y, hy, hynumber.trans (hnumber.trans hissue), ?_⟩
        have hstatus : y.status = o.status.value := by
          rw [hwritten rfl]
          simp [releaseFields, hhead, setAll, outcomeFields, Field.set]
        obtain ⟨hrunning, hpending⟩ := hanswer o rfl
        rw [hstatus]
        rintro (hopen | hopen)
        · exact hpending ((TaskStatus.value_inj _ .pending).mp hopen)
        · exact hrunning ((TaskStatus.value_inj _ .inProgress).mp hopen)
    · refine List.nodup_append.mpr ⟨h.distinct, outcomeOf_nodup rosters _ _, fun n hn m hm hnm => ?_⟩
      -- The row of an issue that is finished is not the one that this loop holds.
      obtain ⟨o, head, -, -, hissue⟩ := mem_outcomeOf hpc hm
      obtain ⟨y, hy, hynumber, hclosed⟩ := h.closed n hn
      obtain rfl := numbers_unique h.once hy hx hynumber (hnumber.trans (hnm ▸ hissue))
      exact hclosed (.inr hlive)
  · cases ht

theorem fileOne_board (src : GitHubWorkSource) (issue : Issue) (id : String) (createdAt ts : ℚ)
    (b : Board) (seen : Finset Int) (filed : List String) :
    (fileOne src issue id createdAt ts .stored b seen filed).1 = b ∨
      ∃ task, task.status = .pending ∧
      (fileOne src issue id createdAt ts .stored b seen filed).1 = (Kanban.submit b task ts).2 := by
  unfold fileOne
  cases issue.number with
  | none => exact .inl rfl
  | some number =>
    by_cases hseen : number ∈ seen
    · exact .inl (by simp [hseen])
    · simp only [hseen, if_false]
      refine .inr ⟨issueToTask src issue number id createdAt, rfl, ?_⟩
      simp only [GithubTasks.submit]
      cases (Kanban.submit b (issueToTask src issue number id createdAt) ts).1.toOption <;> rfl

theorem Inv.intake (h : Inv s) {l : GithubTasks.Label Thread Source} (hturn : InTurn s.intake l)
    (hstep : step cfgs rosters sources (.intake l) s = some s') : Inv s' := by
  obtain ⟨i, hi, rfl⟩ := Option.map_eq_some_iff.mp hstep
  have hsynced := synced_step h.synced hturn hi
  have honce := once_step h.synced h.once hturn hi
  have hsame : i.board = s.intake.board → Inv { s with intake := i } := fun hboard =>
    h.grows (by simpa only [State.team, hboard] using h.team) hsynced honce
      (fun _ _ hpc => hpc) rfl (by simp [hboard])
  rcases step_cases hi with ⟨t, id, createdAt, ts, how, p, issue, rest, seen, filed, rfl, hcall, rfl⟩ | hboard
  · rcases fileOne_turn h.synced hturn hcall (sources p) with hkept | ⟨rfl, -⟩
    · exact hsame (by simp [setCall, hkept])
    rcases fileOne_board (sources p) issue id createdAt ts s.intake.board seen filed with
      hboard | ⟨task, hpending, hboard⟩
    · exact hsame hboard
    · refine h.grows ?_ hsynced honce (fun _ _ hpc => hpc) rfl fun r hr => ?_
      · have hteam := Perpetual.Team.submit_inv s.team task ts hpending h.team
        simpa only [State.team, setCall, hboard] using hteam
      · show r ∈ (fileOne (sources p) issue id createdAt ts .stored s.intake.board seen filed).1.tasks
        rw [hboard]
        rcases submit_cases s.intake.board task ts with hkept | ⟨-, htasks, -⟩
        · exact hkept.symm ▸ hr
        · exact htasks.symm ▸ List.mem_append_left _ hr
  · exact hsame hboard

theorem Inv.step (h : Inv s) {l : Label N Thread Source} (hpermitted : Permitted s l)
    (hstep : Workers.step cfgs rosters sources l s = some s') : Inv s' := by
  cases l with
  | intake l => exact h.intake hpermitted hstep
  | team l =>
    cases l with
    | submit task ts => exact h.submit hpermitted hstep
    | peek i => exact h.peek hstep
    | claim i t => exact h.claim hstep
    | writeBack i answer t => exact h.writeBack hpermitted hstep

end Steps

/-! ## Every run -/

omit [DecidableEq Thread] [DecidableEq Source] in
theorem inv_start {b : Board} (hstill : ∀ r ∈ b.tasks, r.status ≠ "in_progress")
    (hb : numbers b = []) :
    Inv (start b : State N Thread Source) where
  team := Perpetual.Team.start_inv b hstill
  synced := synced_start (by simp [hb])
  once := by simp [Once, start, GithubTasks.start, hb]
  tied i claimed hpc := by simp [start] at hpc
  closed n hn := by simp [start] at hn
  distinct := List.nodup_nil

omit [DecidableEq Thread] [DecidableEq Source] in
theorem Inv.alone {s : State N Thread Source} (h : Inv s) {i j : Fin N} {n : Int}
    (hi : WorksOn s i n) (hj : WorksOn s j n) : i = j := by
  -- Whoever works on an issue has its one task.
  obtain ⟨claimed, hpc, hissue⟩ := hi
  obtain ⟨held, hpc', hissue'⟩ := hj
  obtain ⟨r, hr, hid, hnumber⟩ := h.tied i claimed hpc
  obtain ⟨x, hx, hxid, hxnumber⟩ := h.tied j held hpc'
  obtain rfl := numbers_unique h.once hr hx (hnumber.trans hissue) (hxnumber.trans hissue')
  exact h.team.unique i j r.id ⟨claimed, hpc, hid.symm⟩ ⟨held, hpc', hxid.symm⟩

omit [DecidableEq Thread] [DecidableEq Source] in
theorem Inv.rests {s : State N Thread Source} (h : Inv s) {i : Fin N} {n : Int}
    (hn : n ∈ s.finished) :
    ¬ WorksOn s i n := by
  rintro ⟨claimed, hpc, hissue⟩
  obtain ⟨r, hr, hid, hnumber⟩ := h.tied i claimed hpc
  obtain ⟨x, hx, hxid, hlive⟩ := h.team.held i claimed.id ⟨claimed, hpc, rfl⟩
  obtain rfl : x = r := row_unique _ x r hx hr (hxid.trans hid.symm)
  obtain ⟨y, hy, hynumber, hclosed⟩ := h.closed n hn
  obtain rfl := numbers_unique h.once hy hx hynumber (hnumber.trans hissue)
  exact hclosed (.inr hlive)

/-- **Each issue is carried out once at most.** In every state that the loops of a team and the
calls of the intake can reach together, an issue has one task, one loop works on it, and one
dispatch of it came to an outcome, after which nobody works on it. -/
theorem one_outcome_per_issue (cfgs : Fin N → Supervisor.Config) (rosters : Fin N → Roster)
    (sources : Source → GitHubWorkSource) (b : Board)
    (hstill : ∀ r ∈ b.tasks, r.status ≠ "in_progress") (hb : numbers b = [])
    (labels : List (Label N Thread Source))
    (hpermitted : ∀ taken ∈ path (step cfgs rosters sources) (start b) labels,
      Permitted taken.before taken.label) :
    ∀ taken ∈ path (step cfgs rosters sources) (start b) labels,
      (numbers taken.after.intake.board).Nodup ∧ taken.after.finished.Nodup ∧
        (∀ i j n, WorksOn taken.after i n → WorksOn taken.after j n → i = j) ∧
          ∀ i, ∀ n ∈ taken.after.finished, ¬ WorksOn taken.after i n := by
  intro taken htaken
  have h := path_invariant (fun _ _ _ h hl hs => Inv.step h hl hs) (start b) labels (inv_start hstill hb) hpermitted
    taken htaken
  exact ⟨h.once, h.distinct, fun i j n => h.alone, fun i n hn => h.rests hn⟩

/-! ## One issue and two loops -/

def twoLoops : Fin 2 → Supervisor.Config := fun _ => ⟨"team", none, none, 10, false⟩

def builders : Fin 2 → Roster := fun _ => [("builder", ⟨"builder"⟩)]

def first : Fin 2 := ⟨0, Nat.zero_lt_two⟩

def second : Fin 2 := Fin.last 1

def twoStep : Label 2 Unit Unit → State 2 Unit Unit → Option (State 2 Unit Unit) :=
  step twoLoops builders fun _ => source

/-- The one issue is filed, both loops peek, and the first claims it. -/
def oneIssue : List (Label 2 Unit Unit) :=
  [.intake (.poll () () 100), .intake (.fetch () true [flakyIssue]), .intake (.load () true),
    .intake (.submit () "t1" 100 100 .stored), .intake (.save () true), .team (.peek first), .team (.peek second),
    .team (.claim first ⟨101, 101, 101, 101⟩), .team (.claim second ⟨101, 101, 101, 101⟩),
    .team (.writeBack first (.ok ⟨.done, 3, none, none, none⟩) ⟨102, 102, 102, 102⟩)]

theorem oneIssue_permitted :
    ∀ taken ∈ path twoStep (start Board.empty) oneIssue, Permitted taken.before taken.label := by
  refine path_steps (fun _ _ _ _ _ _ => trivial) (fun s l s' (_ : True) (hl : l ∈ oneIssue) hstep => ?_) _ _ trivial
    fun taken htaken => label_mem_of_path htaken
  cases l with
  | intake l =>
    obtain ⟨i, hi, -⟩ := Option.map_eq_some_iff.mp hstep
    refine inTurn_of_orderly ?_ hi
    simp only [oneIssue, List.mem_cons, Label.intake.injEq, List.not_mem_nil, reduceCtorEq, or_false] at hl
    rcases hl with rfl | rfl | rfl | rfl | rfl <;> simp [Orderly]
  | team l =>
    simp only [oneIssue, List.mem_cons, Label.team.injEq, List.not_mem_nil, reduceCtorEq, false_or, or_false] at hl
    rcases hl with rfl | rfl | rfl | rfl | rfl <;> simp [Permitted]

theorem oneIssue_outcome :
    (final twoStep (start Board.empty) oneIssue).finished = [7] ∧
    ∀ taken ∈ path twoStep (start Board.empty) oneIssue,
      (numbers taken.after.intake.board).Nodup ∧ taken.after.finished.Nodup ∧
        (∀ i j n, WorksOn taken.after i n → WorksOn taken.after j n → i = j) ∧
          ∀ i, ∀ n ∈ taken.after.finished, ¬ WorksOn taken.after i n :=
  ⟨by decide +kernel, one_outcome_per_issue twoLoops builders (fun _ => source) Board.empty
    (fun r hr => absurd hr (by simp [Board.empty])) (by decide) oneIssue oneIssue_permitted⟩

end Swarm.GithubTasks.Workers
