import Swarm.Kanban.Order
import Swarm.Perpetual.Team

/-!
# A team never runs ahead of the dependencies

Every step of a team is a move of the schedule on its board, so in each state that a team can reach
the tasks that have begun are closed under what they wait for.
-/

namespace Swarm.Perpetual.Team

open Kanban Supervisor Swarm.Lib

variable {N : Nat} (cfgs : Fin N → Supervisor.Config) (rosters : Fin N → Roster)

theorem move_peek {s s' : TeamState N} {i : Fin N} (h : step cfgs rosters (.peek i) s = some s') :
    s'.board = s.board := by
  simp only [step] at h
  split at h
  · split at h
    all_goals
      cases h
      rfl
  · cases h

theorem move_claim {s s' : TeamState N} {i : Fin N} {t : Times}
    (h : step cfgs rosters (.claim i t) s = some s') :
    Schedule.Move s.board.schedule s'.board.schedule := by
  simp only [step] at h
  split at h
  · next requiredHead hpc =>
    rcases claimOne_cases s.board (some requiredHead) ((cfgs i).teammateName ++ ":" ++ requiredHead)
      t.startedAt t.claimTs with ⟨-, hboard, hres⟩ | ⟨r, hr, -, hpending, -, hmet, heq⟩
    · split at h
      · next heq => exact absurd (congrArg Prod.fst heq) (hres _)
      all_goals
        next heq =>
          cases h
          exact .idle (congrArg Board.schedule ((congrArg Prod.snd heq).symm.trans hboard))
    · simp only [heq, Option.some.injEq] at h
      subst h
      exact move_taken hr hpending hmet (claimedBoard_moves s.board t.claimTs
        ((cfgs i).teammateName ++ ":" ++ requiredHead) t.startedAt r)
  · cases h

theorem move_writeBack {s s' : TeamState N} {i : Fin N} {answer : Answer} {t : Times} (hi : Inv s)
    (h : step cfgs rosters (.writeBack i answer t) s = some s') :
    Schedule.Move s.board.schedule s'.board.schedule := by
  simp only [step] at h
  split at h
  · next claimed hpc =>
    obtain ⟨r, hr, hid, hlive⟩ := hi.held i claimed.id ⟨claimed, hpc, rfl⟩
    obtain ⟨-, hmoves, -⟩ := release_spec (rosters i) answer claimed t
      ⟨s.board, (s.loops i).costSoFarUsd, (s.loops i).turn, []⟩ r ((select_eq_some _ _ _).mpr ⟨hr, hid⟩)
    cases h
    exact move_released hr hlive (hid ▸ hmoves)
  · cases h

/-- A team is a scheduler of its board. -/
theorem move_step {s s' : TeamState N} {l : Label N} (hi : Inv s) (hallowed : Allowed l)
    (h : step cfgs rosters l s = some s') : Schedule.Move s.board.schedule s'.board.schedule := by
  cases l with
  | submit task ts =>
    cases h
    exact move_submit hallowed
  | peek i => exact .idle (congrArg Board.schedule (move_peek cfgs rosters h))
  | claim i t => exact move_claim cfgs rosters h
  | writeBack i answer t => exact move_writeBack cfgs rosters hi h

/-- **A team never runs ahead.** In every state that N loops and their neighbours can reach, all
that a running or finished task depends on, however far down, is DONE, and nothing DONE is taken
back. -/
theorem team_in_order (b : Board) (hb : Settled b) (labels : List (Label N))
    (hallowed : ∀ l ∈ labels, Allowed l) :
    let s := final (step cfgs rosters) (start b) labels
    InOrder b s.board ∧ ∀ i id, Holds s i id → ∀ id', DependsOn s.board id id' → s.board.isDone id' = true := by
  obtain ⟨hi, hordered, hkept⟩ := Schedule.run_ordered (fun s => s.board.schedule) Inv
    (fun s l s' hi hl h => ⟨step_inv cfgs rosters s l s' hi hl h, move_step cfgs rosters hi hl h⟩)
    (start b) labels (start_inv b hb.still) hb.ordered hallowed
  have horder := inOrder_of hordered hkept
  refine ⟨horder, fun i id hholds id' hdep => ?_⟩
  obtain ⟨r, hr, rfl, hlive⟩ := hi.held i id hholds
  exact horder.below r hr (.inl hlive) id' hdep

/-- The claimed task waits for the DONE one. -/
def twoPeeksEnd : TeamState 2 :=
  final (step (fun _ => ⟨"team", none, none, 10, false⟩) fun _ => [("builder", ⟨"builder"⟩)])
    (start twoTasks) twoPeeks

theorem twoPeeks_in_order : ∃ r ∈ twoPeeksEnd.board.tasks, r.id = "b" ∧
    ∀ id, DependsOn twoPeeksEnd.board r.id id → twoPeeksEnd.board.isDone id = true := by
  have hb : Settled twoTasks := ⟨by decide, by decide⟩
  have hallowed : ∀ l ∈ twoPeeks, Allowed l := by
    simp [twoPeeks, Allowed]
  obtain ⟨horder, -⟩ := team_in_order (fun _ => ⟨"team", none, none, 10, false⟩)
    (fun _ => [("builder", ⟨"builder"⟩)]) twoTasks hb twoPeeks hallowed
  have hlive : ∃ r ∈ twoPeeksEnd.board.tasks, r.id = "b" ∧ r.status = "in_progress" := by
    decide +kernel
  obtain ⟨r, hr, hid, hstatus⟩ := hlive
  exact ⟨r, hr, hid, horder.below r hr (.inl hstatus)⟩

end Swarm.Perpetual.Team
