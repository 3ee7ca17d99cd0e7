import Swarm.Lib.Runs
import Swarm.Perpetual.Driver

/-!
# A team of loops on one kanban

Each kanban call of `_drive_claimed_task` is one step of one loop, and others submit pending
tasks at any time. A loop is outside the driver, has peeked, or holds a claimed task.
-/

namespace Swarm.Perpetual.Team

open Kanban Supervisor Swarm.Lib

/-! ## The machine -/

/-- Where a loop stands: before its peek, before its claim, or with a task. -/
inductive Pc
  | outside
  | peeked (requiredHead : String)
  | holding (claimed : Kanban.Task)

structure Loop where
  pc : Pc
  costSoFarUsd : ℚ
  turn : Nat

/-- A task that was claimed, and the board just before. -/
structure Claim where
  task : Kanban.Task
  board : Board

/-- `claims` is a ghost: every claim so far. -/
structure TeamState (N : Nat) where
  board : Board
  loops : Fin N → Loop
  claims : List Claim

inductive Label (N : Nat)
  | submit (task : Kanban.Task) (ts : ℚ)
  | peek (i : Fin N)
  | claim (i : Fin N) (times : Times)
  | writeBack (i : Fin N) (answer : Answer) (times : Times)

variable {N : Nat} (cfgs : Fin N → Supervisor.Config) (rosters : Fin N → Roster)

def TeamState.goto (s : TeamState N) (i : Fin N) (pc : Pc) : TeamState N :=
  { s with loops := Function.update s.loops i { s.loops i with pc := pc } }

/-- A call that raises ends the driver, as an empty answer does. -/
def step (l : Label N) (s : TeamState N) : Option (TeamState N) :=
  match l with
  | .submit task ts => some { s with board := (submit s.board task ts).2 }
  | .peek i =>
    match (s.loops i).pc with
    | .outside =>
      match peekHead s.board with
      | .ok (some requiredHead) => some (s.goto i (.peeked requiredHead))
      | .ok none | .error _ => some s
    | _ => none
  | .claim i t =>
    match (s.loops i).pc with
    | .peeked requiredHead =>
      match claimOne s.board ((cfgs i).teammateName ++ ":" ++ requiredHead) (some requiredHead)
          t.startedAt t.claimTs with
      | (.ok (some claimed), b) =>
        some { s.goto i (.holding claimed) with
          board := b
          claims := s.claims ++ [⟨claimed, s.board⟩] }
      | (.ok none, b) | (.error _, b) => some { s.goto i .outside with board := b }
    | _ => none
  | .writeBack i answer t =>
    match (s.loops i).pc with
    | .holding claimed =>
      let loop := s.loops i
      let out :=
        (release (rosters i) answer claimed t ⟨s.board, loop.costSoFarUsd, loop.turn, []⟩).2
      some { s with
        board := out.board
        loops := Function.update s.loops i ⟨.outside, out.costSoFarUsd, out.turn⟩ }
    | _ => none

def start (b : Board) : TeamState N := ⟨b, fun _ => ⟨.outside, 0, 0⟩, []⟩

/-- What the others may do: submit pending tasks, and answer anything but in_progress. -/
def Allowed : Label N → Prop
  | .submit task _ => task.status = .pending
  | .writeBack _ answer _ => ∀ o, answer = .ok o → o.status ≠ .inProgress
  | _ => True

/-! ## The invariant -/

/-- The loop has claimed the task and not written it back. -/
def Holds (s : TeamState N) (i : Fin N) (id : String) : Prop :=
  ∃ claimed, (s.loops i).pc = .holding claimed ∧ claimed.id = id

/-- The claim took a pending task whose blockers were DONE. -/
def Claim.Met (c : Claim) : Prop :=
  ∃ r ∈ c.board.tasks, r.id = c.task.id ∧ r.status = "pending" ∧ BlockersMet c.board r

structure Inv (s : TeamState N) : Prop where
  held : ∀ i id, Holds s i id → ∃ r ∈ s.board.tasks, r.id = id ∧ r.status = "in_progress"
  live : ∀ r ∈ s.board.tasks, r.status = "in_progress" → ∃ i, Holds s i r.id
  unique : ∀ i j id, Holds s i id → Holds s j id → i = j
  met : ∀ c ∈ s.claims, c.Met

theorem holds_update (s s' : TeamState N) (i : Fin N) (loop : Loop)
    (hloops : s'.loops = Function.update s.loops i loop) (j : Fin N) (id : String) :
    Holds s' j id ↔
      if j = i then ∃ claimed, loop.pc = .holding claimed ∧ claimed.id = id else Holds s j id := by
  by_cases h : j = i
  · subst h; simp [Holds, hloops]
  · simp [Holds, hloops, h]

theorem inv_of_same (s s' : TeamState N) (hholds : ∀ i id, Holds s' i id ↔ Holds s i id)
    (hlive : ∀ id, (∃ r ∈ s'.board.tasks, r.id = id ∧ r.status = "in_progress") ↔
      ∃ r ∈ s.board.tasks, r.id = id ∧ r.status = "in_progress")
    (hclaims : s'.claims = s.claims) (hi : Inv s) : Inv s' where
  held i id h := (hlive id).mpr (hi.held i id ((hholds i id).mp h))
  live r hr hstatus := by
    obtain ⟨x, hx, hid, hx'⟩ := (hlive r.id).mp ⟨r, hr, rfl, hstatus⟩
    obtain ⟨i, hholds'⟩ := hi.live x hx hx'
    exact ⟨i, (hholds i r.id).mpr (hid ▸ hholds')⟩
  unique i j id h1 h2 := hi.unique i j id ((hholds i id).mp h1) ((hholds j id).mp h2)
  met := hclaims ▸ hi.met

theorem submit_inv (s : TeamState N) (task : Kanban.Task) (ts : ℚ)
    (hpending : task.status = .pending) (hi : Inv s) :
    Inv { s with board := (submit s.board task ts).2 } := by
  refine inv_of_same s { s with board := (submit s.board task ts).2 } (fun _ _ => Iff.rfl)
    (fun id => ?_) rfl hi
  rcases submit_cases s.board task ts with heq | ⟨-, htasks, -⟩
  · rw [heq]
  · have hnot : ¬ (task.toRow.id = id ∧ task.toRow.status = "in_progress") := by
      rintro ⟨-, h⟩
      simp [Task.toRow, hpending, TaskStatus.value] at h
    simp only [htasks, List.mem_append, List.mem_singleton, or_and_right, exists_or, exists_eq_left,
      or_iff_left hnot]

theorem peek_inv (s s' : TeamState N) (i : Fin N) (h : step cfgs rosters (.peek i) s = some s')
    (hi : Inv s) : Inv s' := by
  simp only [step] at h
  split at h
  · next hpc =>
    have hsame : ∀ pc, (∀ claimed, pc ≠ Pc.holding claimed) → Inv (s.goto i pc) := by
      intro pc hnot
      refine inv_of_same s (s.goto i pc) (fun j id => ?_) (fun _ => Iff.rfl) rfl hi
      rw [holds_update s (s.goto i pc) i _ rfl]
      split
      · next heq => subst heq; simp [Holds, hpc, hnot]
      · exact Iff.rfl
    split at h
    · cases h; exact hsame _ (by simp)
    · cases h; exact hi
    · cases h; exact hi
  · cases h

theorem inv_of_taken (s s' : TeamState N) (i : Fin N) (r : Row) (claimed : Kanban.Task)
    (hr : r ∈ s.board.tasks) (hpending : r.status = "pending") (hfree : ∀ id, ¬ Holds s i id)
    (hloops : s'.loops = Function.update s.loops i { s.loops i with pc := .holding claimed })
    (hid : claimed.id = r.id) (hmoves : Moves s.board s'.board r.id "in_progress")
    (hclaims : ∀ c ∈ s'.claims, c ∈ s.claims ∨ c.Met) (hi : Inv s) : Inv s' := by
  have hholds : ∀ j id, Holds s' j id ↔ if j = i then r.id = id else Holds s j id := by
    intro j id
    rw [holds_update s s' i _ hloops]
    simp [hid]
  -- Nobody holds a pending task.
  have hnot : ∀ j, ¬ Holds s j r.id := by
    intro j hj
    obtain ⟨x, hx, hxid, hlive⟩ := hi.held j r.id hj
    rw [row_unique _ x r hx hr hxid, hpending] at hlive
    simp at hlive
  constructor
  · intro j id hj
    rw [hholds] at hj
    split at hj
    · rw [← hj]; exact hmoves.moved r hr rfl
    · obtain ⟨x, hx, hxid, hlive⟩ := hi.held j id hj
      exact ⟨x, hmoves.mem_of_ne x hx fun hsame => hnot j (hsame ▸ hxid ▸ hj), hxid, hlive⟩
  · intro x hx hlive
    rcases hmoves.row x hx with ⟨hxid, -, -⟩ | ⟨-, hold⟩
    · exact ⟨i, (hholds i x.id).mpr (by rw [if_pos rfl, hxid])⟩
    · obtain ⟨j, hj⟩ := hi.live x hold hlive
      have hji : j ≠ i := fun heq => hfree x.id (heq ▸ hj)
      exact ⟨j, (hholds j x.id).mpr (by rwa [if_neg hji])⟩
  · intro j k id hj hk
    rw [hholds] at hj hk
    split at hj <;> split at hk
    · next h1 h2 => rw [h1, h2]
    · exact absurd (hj ▸ hk) (hnot k)
    · exact absurd (hk ▸ hj) (hnot j)
    · exact hi.unique j k id hj hk
  · intro c hc
    rcases hclaims c hc with hc | hc
    · exact hi.met c hc
    · exact hc

theorem claim_inv (s s' : TeamState N) (i : Fin N) (t : Times)
    (h : step cfgs rosters (.claim i t) s = some s') (hi : Inv s) : Inv s' := by
  simp only [step] at h
  split at h
  · next requiredHead hpc =>
    have hfree : ∀ id, ¬ Holds s i id := by simp [Holds, hpc]
    rcases claimOne_cases s.board (some requiredHead) ((cfgs i).teammateName ++ ":" ++ requiredHead)
      t.startedAt t.claimTs with ⟨-, hboard, hres⟩ | ⟨r, hr, -, hpending, -, hmet, heq⟩
    · have hsame : Inv { s.goto i .outside with board := s.board } := by
        refine inv_of_same s { s.goto i .outside with board := s.board } (fun j id => ?_)
          (fun _ => Iff.rfl) rfl hi
        rw [holds_update s { s.goto i .outside with board := s.board } i _ rfl]
        split
        · next heq => subst heq; simp [hfree]
        · exact Iff.rfl
      split at h
      · next heq => rw [heq] at hres; exact absurd rfl (hres _)
      · next heq => cases h; rw [heq] at hboard; subst hboard; exact hsame
      · next heq => cases h; rw [heq] at hboard; subst hboard; exact hsame
    · simp only [heq, Option.some.injEq] at h
      have hmoves := claimedBoard_moves s.board t.claimTs
        ((cfgs i).teammateName ++ ":" ++ requiredHead) t.startedAt r
      subst h
      refine inv_of_taken s _ i r _ hr hpending hfree rfl rfl hmoves (fun c hc => ?_) hi
      rcases List.mem_append.mp hc with hc | hc
      · exact Or.inl hc
      · rw [List.mem_singleton.mp hc]
        exact Or.inr ⟨r, hr, rfl, hpending, hmet⟩
  · cases h

theorem inv_of_released (s s' : TeamState N) (i : Fin N) (loop : Loop) (claimed : Kanban.Task)
    (status : String) (hpc : (s.loops i).pc = .holding claimed)
    (hloops : s'.loops = Function.update s.loops i loop)
    (houtside : ∀ held, loop.pc ≠ .holding held)
    (hmoves : Moves s.board s'.board claimed.id status) (hstatus : status ≠ "in_progress")
    (hclaims : s'.claims = s.claims) (hi : Inv s) : Inv s' := by
  have hmine : Holds s i claimed.id := ⟨claimed, hpc, rfl⟩
  have hout : ∀ j id, Holds s' j id ↔ j ≠ i ∧ Holds s j id := by
    intro j id
    rw [holds_update s s' i loop hloops]
    split
    · next heq => simp [heq, houtside]
    · next hne => simp [hne]
  -- Nobody else holds the released task.
  have hnot : ∀ j id, Holds s' j id → id ≠ claimed.id := by
    rintro j id hj rfl
    obtain ⟨hne, hj⟩ := (hout j claimed.id).mp hj
    exact hne (hi.unique j i claimed.id hj hmine)
  constructor
  · intro j id hj
    obtain ⟨x, hx, hxid, hlive⟩ := hi.held j id ((hout j id).mp hj).2
    exact ⟨x, hmoves.mem_of_ne x hx fun hsame => hnot j id hj (hxid ▸ hsame), hxid, hlive⟩
  · intro x hx hlive
    rcases hmoves.row x hx with ⟨-, hxs, -⟩ | ⟨hne, hold⟩
    · exact absurd (hxs.symm.trans hlive) hstatus
    · obtain ⟨j, hj⟩ := hi.live x hold hlive
      refine ⟨j, (hout j x.id).mpr ⟨?_, hj⟩⟩
      rintro rfl
      obtain ⟨held, hheld, hid⟩ := hj
      rw [hpc] at hheld
      cases hheld
      exact hne hid.symm
  · intro j k id hj hk
    exact hi.unique j k id ((hout j id).mp hj).2 ((hout k id).mp hk).2
  · rw [hclaims]; exact hi.met

theorem writeBack_inv (s s' : TeamState N) (i : Fin N) (answer : Answer) (t : Times)
    (hallowed : ∀ o, answer = .ok o → o.status ≠ .inProgress)
    (h : step cfgs rosters (.writeBack i answer t) s = some s') (hi : Inv s) : Inv s' := by
  simp only [step] at h
  split at h
  · next claimed hpc =>
    obtain ⟨r, hr, hid, -⟩ := hi.held i claimed.id ⟨claimed, hpc, rfl⟩
    obtain ⟨-, hmoves, -⟩ := release_spec (rosters i) answer claimed t
      ⟨s.board, (s.loops i).costSoFarUsd, (s.loops i).turn, []⟩ r ((select_eq_some _ _ _).mpr ⟨hr, hid⟩)
    have hstatus : (releaseStatus (rosters i) answer claimed).value ≠ "in_progress" := fun hlive =>
      releaseStatus_ne_inProgress (rosters i) answer claimed hallowed
        ((TaskStatus.value_inj _ .inProgress).mp hlive)
    rw [Option.some.injEq] at h
    subst h
    exact inv_of_released s _ i _ claimed _ hpc rfl (by simp) hmoves hstatus rfl hi
  · cases h

theorem step_inv (s : TeamState N) (l : Label N) (s' : TeamState N) (hi : Inv s)
    (hallowed : Allowed l) (h : step cfgs rosters l s = some s') : Inv s' := by
  cases l with
  | submit task ts => cases h; exact submit_inv s task ts hallowed hi
  | peek i => exact peek_inv cfgs rosters s s' i h hi
  | claim i t => exact claim_inv cfgs rosters s s' i t h hi
  | writeBack i answer t => exact writeBack_inv cfgs rosters s s' i answer t hallowed h hi

theorem start_inv (b : Board) (hb : ∀ r ∈ b.tasks, r.status ≠ "in_progress") :
    Inv (start b : TeamState N) where
  held i id h := by simp [Holds, start] at h
  live r hr h := absurd h (hb r hr)
  unique i j id h := by simp [Holds, start] at h
  met c hc := by simp [start] at hc

/-- **A team orphans no task.** In every state that N loops and their neighbours can reach, the
tasks in progress are those that loops hold, each held by one loop and claimed when all that it
waits for was DONE. -/
theorem team_orphans_none (b : Board) (hb : ∀ r ∈ b.tasks, r.status ≠ "in_progress")
    (labels : List (Label N)) (hallowed : ∀ l ∈ labels, Allowed l) :
    let s := final (step cfgs rosters) (start b) labels
    (∀ id, (∃ r ∈ s.board.tasks, r.id = id ∧ r.status = "in_progress") ↔ ∃ i, Holds s i id) ∧
      (∀ i j id, Holds s i id → Holds s j id → i = j) ∧
      (∀ c ∈ s.claims, c.Met) ∧
      ((∀ i, (s.loops i).pc = .outside) → ∀ r ∈ s.board.tasks, r.status ≠ "in_progress") := by
  have hi : Inv (final (step cfgs rosters) (start b) labels) :=
    final_invariant (fun s l s' hi ha h => step_inv cfgs rosters s l s' hi ha h) (start b) labels
      (start_inv b hb) hallowed
  refine ⟨fun id => ⟨?_, ?_⟩, hi.unique, hi.met, ?_⟩
  · rintro ⟨r, hr, rfl, hlive⟩
    exact hi.live r hr hlive
  · rintro ⟨i, h⟩
    exact hi.held i id h
  · intro houtside r hr hlive
    obtain ⟨i, claimed, hpc, -⟩ := hi.live r hr hlive
    rw [houtside i] at hpc
    cases hpc

/-- Two loops peek at the one ready task, and the second claims it. -/
def twoPeeks : List (Label 2) :=
  [.peek 0, .peek 1, .claim 1 ⟨2, 2, 2, 2⟩, .claim 0 ⟨3, 3, 3, 3⟩]

theorem twoPeeks_held_once :
    ∃ i, Holds
      (final (step (fun _ => ⟨"team", none, none, 10, false⟩) fun _ => [("builder", ⟨"builder"⟩)])
        (start twoTasks) twoPeeks) i "b" := by
  have hb : ∀ r ∈ twoTasks.tasks, r.status ≠ "in_progress" := by decide
  have hallowed : ∀ l ∈ twoPeeks, Allowed l := by
    simp [twoPeeks, Allowed]
  obtain ⟨hheld, -⟩ := team_orphans_none (fun _ => ⟨"team", none, none, 10, false⟩)
    (fun _ => [("builder", ⟨"builder"⟩)]) twoTasks hb twoPeeks hallowed
  exact (hheld "b").mp (by decide +kernel)

end Swarm.Perpetual.Team
