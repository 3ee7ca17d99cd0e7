import Mathlib.Data.Fintype.EquivFin
import Swarm.Perpetual.Run
import Swarm.Supervisor.Ends

/-!
# When an idle loop asks for work

Nothing is running and nothing is ready. `_board_idle` still counts the pending tasks, so the
work source is asked exactly when none is left.
-/

namespace Swarm.Perpetual

open Kanban Supervisor Resilience

variable (scfg : Supervisor.Config) (roster : Roster) (cfg : Config) (env : Env)

/-! ## Asking -/

def boardAfter (filing : Filing) (s : LoopState) : Board :=
  (tick scfg roster cfg { env with generate := fun _ => filing } s).2.sup.board

/-- The work source is asked: what it files is on the board after the tick. -/
def Asks (s : LoopState) : Prop :=
  ∀ filing, boardAfter scfg roster cfg env filing s =
    file (boardAfter scfg roster cfg env ⟨[], .ok []⟩ s) filing

/-- The call of the driver makes an attempt, which is not told to stop. -/
def Attempts (s : LoopState) : Prop := 1 ≤ cfg.maxAttempts ∧ env.shouldAbort s.polls = false

instance (s : LoopState) : Decidable (Attempts cfg env s) := by
  unfold Attempts
  infer_instance

/-! ## A tick with nothing ready -/

theorem readyRows_nil {b : Board} (h : ∀ r ∈ b.tasks, ready b r = false) :
    readyRows b none = [] := by
  apply List.eq_nil_iff_forall_not_mem.mpr
  intro r hr
  obtain ⟨hmem, hready, -⟩ := (mem_readyRows b none r).mp hr
  simp [h r hmem] at hready

theorem resilientDrive_nothing (s : LoopState) (htyped : Typed s.sup.board)
    (hready : ∀ r ∈ s.sup.board.tasks, ready s.sup.board r = false) :
    ∃ result s', resilientDrive scfg roster cfg env s = (result, s') ∧ s'.sup = s.sup ∧
      if Attempts cfg env s then result = .ok none else ∃ e, result = .error e := by
  have hhead : (readyRows s.sup.board none).head? = none := by rw [readyRows_nil hready]; rfl
  have hfn : ∀ key, (world scfg roster env).fn key { s with polls := s.polls + 1 } =
      (.ok none, { s with polls := s.polls + 1 }) := by
    intro key
    simp only [world, drive_idle scfg roster env.answers _ s.sup htyped hhead]
  have hpoll : (world scfg roster env).shouldAbort s =
    (env.shouldAbort s.polls, { s with polls := s.polls + 1 }) := rfl
  have hbudget : cfg.options.maxAttempts = cfg.maxAttempts := rfl
  simp only [resilientDrive, resilientCall, hbudget, Attempts]
  by_cases hmax : cfg.maxAttempts < 1
  · have hnot : ¬ 1 ≤ cfg.maxAttempts := by omega
    simp [hmax, hnot]
  · obtain ⟨left, hleft⟩ : ∃ left, cfg.maxAttempts.toNat = left + 1 :=
      ⟨cfg.maxAttempts.toNat - 1, by omega⟩
    have hone : 1 ≤ cfg.maxAttempts := by omega
    simp only [hmax, hone, if_false, true_and, hleft, attempts, enter_world, hpoll]
    cases env.shouldAbort s.polls with
    | true => simp
    | false => simp [hfn]

/-- With nothing running or ready, the tick does nothing but file what it asks for. -/
theorem boardAfter_spec (filing : Filing) (s : LoopState) (htyped : Typed s.sup.board)
    (hrunning : ∀ r ∈ s.sup.board.tasks, r.status ≠ "in_progress")
    (hready : ∀ r ∈ s.sup.board.tasks, ready s.sup.board r = false) :
    boardAfter scfg roster cfg env filing s =
      if (∀ r ∈ s.sup.board.tasks, r.status ≠ "pending") ∧ Attempts cfg env s then
        file s.sup.board filing
      else s.sup.board := by
  let env' : Env := { env with generate := fun _ => filing }
  let s₀ : LoopState := { s with stats := { s.stats with
    ticks := s.stats.ticks + 1, lastTickAt := some (env.now s.polls) } }
  -- Nothing is ready, so the drive leaves the board, and answers if it gets to its call.
  obtain ⟨result, s', hdrive, hsup, hresult⟩ :=
    resilientDrive_nothing scfg roster cfg env' s₀ htyped hready
  have hsame : Attempts cfg env' s₀ ↔ Attempts cfg env s := Iff.rfl
  simp only [hsame] at hresult
  have hboard : s'.sup.board = s.sup.board := congrArg State.board hsup
  have hdrained : drained s'.sup.board =
      .ok (decide (∀ r ∈ s.sup.board.tasks, r.status ≠ "pending")) := by
    rw [drained_spec, hboard, Except.ok.injEq, Bool.eq_iff_iff]
    simp only [List.all_eq_true, Bool.and_eq_true, bne_iff_ne, decide_eq_true_eq]
    exact ⟨fun h r hr => (h r hr).1, fun h r hr => ⟨h r hr, hrunning r hr⟩⟩
  simp only [boardAfter, tick]
  rw [hdrive]
  by_cases hattempts : Attempts cfg env s
  · rw [if_pos hattempts] at hresult
    subst hresult
    simp only [hdrained, hattempts, and_true]
    -- Only now does the board count, and it is idle if nothing is pending.
    by_cases hpending : ∀ r ∈ s.sup.board.tasks, r.status ≠ "pending"
    · rw [decide_eq_true hpending, if_pos hpending]
      simp only [safeGenerate]
      cases filing.answer with
      | ok ids => rw [← hboard]
      | error e => rw [← hboard]
    · rw [decide_eq_false hpending, if_neg hpending]
      exact hboard
  · obtain ⟨e, rfl⟩ : ∃ e, result = .error e := by simpa [hattempts] using hresult
    simpa [hattempts] using hboard

/-! ## The condition -/

theorem file_new (b : Board) : ∃ filing, file b filing ≠ b := by
  obtain ⟨id, hid⟩ := Infinite.exists_notMem_finset (b.tasks.map (·.id)).toFinset
  have hnew : ∀ r ∈ b.tasks, r.id ≠ id := by
    rintro r hr rfl
    exact hid (List.mem_toFinset.mpr (List.mem_map_of_mem hr))
  refine ⟨⟨[(Task.new id 0, 0)], .ok []⟩, fun h => ?_⟩
  have htasks := (submit_fresh b (Task.new id 0) 0 hnew).1
  have hlen : (file b ⟨[(Task.new id 0, 0)], .ok []⟩).tasks.length = b.tasks.length + 1 :=
    (congrArg List.length htasks).trans (by simp)
  rw [h] at hlen
  omega

/-- **A pending task keeps the work source silent.** With no task running and none ready, a tick
asks for work exactly when no task at all is pending and its call makes an attempt. -/
theorem asks_iff (scfg : Supervisor.Config) (roster : Roster) (cfg : Config) (env : Env)
    (s : LoopState) (htyped : Typed s.sup.board)
    (hrunning : ∀ r ∈ s.sup.board.tasks, r.status ≠ "in_progress")
    (hready : ∀ r ∈ s.sup.board.tasks, ready s.sup.board r = false) :
    Asks scfg roster cfg env s ↔
      (∀ r ∈ s.sup.board.tasks, r.status ≠ "pending") ∧ 1 ≤ cfg.maxAttempts ∧
        env.shouldAbort s.polls = false := by
  have hspec := fun filing => boardAfter_spec scfg roster cfg env filing s htyped hrunning hready
  change _ ↔ _ ∧ Attempts cfg env s
  constructor
  · intro hasks
    by_contra hnot
    obtain ⟨filing, hfiling⟩ := file_new s.sup.board
    have := hasks filing
    rw [hspec, hspec, if_neg hnot, if_neg hnot] at this
    exact hfiling this.symm
  · intro hcond filing
    rw [hspec, hspec, if_pos hcond, if_pos hcond]
    rfl

/-- A task that failed, and one that waited for another which is done. -/
def workedOff : Board where
  tasks := [Task.toRow { Task.new "a" 0 with status := .done }, Task.toRow { Task.new "b" 1 with status := .failed },
    Task.toRow { Task.new "c" 2 with status := .done, blockedBy := .ofStrs ["a"] }]
  timeline := []
  primaryKey := by decide

theorem workedOff_typed : Typed workedOff := by
  constructor <;> intro r hr
  · simp only [workedOff, List.mem_cons, List.not_mem_nil, or_false] at hr
    rcases hr with rfl | rfl | rfl
    · exact ⟨.done, rfl⟩
    · exact ⟨.failed, rfl⟩
    · exact ⟨.done, rfl⟩
  · simp only [workedOff, List.mem_cons, List.not_mem_nil, or_false] at hr
    rcases hr with rfl | rfl | rfl
    · exact ⟨[], rfl⟩
    · exact ⟨[], rfl⟩
    · exact ⟨["a"], rfl⟩

theorem workedOff_asks : Asks sup solo defaults (steady throttled) (begin workedOff) :=
  (asks_iff sup solo defaults (steady throttled) (begin workedOff) workedOff_typed (by decide +kernel)
    (by decide +kernel)).mpr ⟨by decide +kernel, by decide, rfl⟩

theorem deadEdge_silent :
    Typed deadEdge ∧ (∀ r ∈ deadEdge.tasks, r.status ≠ "in_progress") ∧
      (∀ r ∈ deadEdge.tasks, ready deadEdge r = false) ∧
      ¬ Asks sup solo defaults (steady throttled) (begin deadEdge) := by
  refine ⟨⟨deadEdge_typed.1, deadEdge_typed.2⟩, by decide +kernel, by decide +kernel, fun hasks => ?_⟩
  let filing : Filing := ⟨[(Task.new "c" 2, 2)], .ok ["c"]⟩
  have hlen := congrArg (fun b : Board => b.tasks.length) (hasks filing)
  have hsilent : (boardAfter sup solo defaults (steady throttled) filing (begin deadEdge)).tasks.length ≠
      (file (boardAfter sup solo defaults (steady throttled) ⟨[], .ok []⟩
        (begin deadEdge)) filing).tasks.length := by
    decide +kernel
  exact hsilent hlen

end Swarm.Perpetual
