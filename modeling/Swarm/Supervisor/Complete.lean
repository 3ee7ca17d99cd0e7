import Swarm.Supervisor.Drain
import Swarm.Supervisor.Parallel

/-!
# What the parallel loop has done when it ends

The loop is alone on its board and every dispatch is answered DONE. Its claims may still come in any
order, and one may be an orphan: then the loop does not end.
-/

namespace Swarm.Supervisor.Parallel

open Kanban Swarm.Lib

/-- Nobody else files a task, no abort marker is there, and the answers are DONE. -/
def Alone : Label → Prop
  | .others _ _ => False
  | .finish _ answer _ => ∃ o, answer = .ok o ∧ o.status = .done
  | .collect _ => True
  | .loop reads => reads.marker = false

def AllDone (b : Board) : Prop := ∀ r ∈ b.tasks, r.status = "done"

/-- What the loop knows where it stands. -/
def Knows (s : PState) : Prop :=
  match s.pc with
  | .unroutable _ => False
  | .drain true => pendingIds s.sup.board = [] ∧ s.running = []
  | .exited none => AllDone s.sup.board
  | _ => True

structure Sole (roster : Roster) (b : Board) (s : PState) : Prop where
  statuses : ∀ r ∈ s.sup.board.tasks, r.status = "pending" ∨ r.status = "in_progress" ∨ r.status = "done"
  routed : ∀ r ∈ s.sup.board.tasks, r.status = "pending" → (pickHead roster r.requiredHead).isSome
  ids : s.sup.board.tasks.map (·.id) = b.tasks.map (·.id)
  claimed : ∀ id, id ∈ s.claimed ↔ id ∈ pendingIds b ∧ id ∉ pendingIds s.sup.board
  once : s.claimed.Nodup
  pending : ∀ id ∈ pendingIds s.sup.board, id ∈ pendingIds b
  answered : ∀ x ∈ s.finished, ∃ task, x = .ok task
  knows : Knows s

variable {cfg : Config} {roster : Roster} {maxParallel : Int} {b : Board} {s s' : PState}

/-! ## The board moves -/

theorem Sole.quiet (h : Sole roster b s) (hboard : s'.sup.board = s.sup.board)
    (hclaimed : s'.claimed = s.claimed) (hanswered : ∀ x ∈ s'.finished, x ∈ s.finished)
    (hknows : Knows s') : Sole roster b s' where
  statuses := hboard ▸ h.statuses
  routed := hboard ▸ h.routed
  ids := hboard ▸ h.ids
  claimed := by rw [hboard, hclaimed]; exact h.claimed
  once := hclaimed ▸ h.once
  pending := hboard ▸ h.pending
  answered x hx := h.answered x (hanswered x hx)
  knows := hknows

theorem Sole.moved (h : Sole roster b s) {id status : String}
    (hmoves : Moves s.sup.board s'.sup.board id status)
    (hstatus : status = "in_progress" ∨ status = "done") :
    (∀ r ∈ s'.sup.board.tasks, r.status = "pending" ∨ r.status = "in_progress" ∨
      r.status = "done") ∧
      (∀ r ∈ s'.sup.board.tasks, r.status = "pending" → (pickHead roster r.requiredHead).isSome) ∧
      ∀ i, i ∈ pendingIds s'.sup.board ↔ i ∈ pendingIds s.sup.board ∧ i ≠ id := by
  have hne : status ≠ "pending" := by
    rcases hstatus with rfl | rfl
    · decide
    · decide
  refine ⟨fun r hr => ?_, fun r hr hp => ?_, mem_pendingIds_moved hmoves hne⟩
  · rcases hmoves.row r hr with ⟨-, hrow, -⟩ | ⟨-, hold⟩
    · exact .inr (hrow ▸ hstatus)
    · exact h.statuses r hold
  · exact h.routed r (pending_of_moved hmoves hne r hr hp).2 hp

theorem Sole.take (h : Sole roster b s) {r : Row} (hr : r ∈ s.sup.board.tasks)
    (hpending : r.status = "pending") (hmoves : Moves s.sup.board s'.sup.board r.id "in_progress")
    (hclaimed : s'.claimed = s.claimed ++ [r.id]) (hfinished : s'.finished = s.finished)
    (hknows : Knows s') : Sole roster b s' := by
  obtain ⟨hstatuses, hrouted, hpendingIds⟩ := h.moved hmoves (.inl rfl)
  have hmem : r.id ∈ pendingIds s.sup.board := (mem_pendingIds _ _).mpr ⟨r, hr, hpending, rfl⟩
  refine ⟨hstatuses, hrouted, hmoves.ids.trans h.ids, fun id => ?_, ?_, fun id hid => ?_, hfinished ▸ h.answered,
    hknows⟩
  · rw [hclaimed, List.mem_append, List.mem_singleton, h.claimed, hpendingIds]
    by_cases hid : id = r.id
    · simp [hid, h.pending r.id hmem]
    · simp [hid]
  · rw [hclaimed, List.nodup_append]
    refine ⟨h.once, List.nodup_singleton _, fun x hx y hy => ?_⟩
    rintro rfl
    rw [List.mem_singleton.mp hy, h.claimed] at hx
    exact hx.2 hmem
  · exact h.pending id ((hpendingIds id).mp hid).1

theorem Sole.finish (h : Sole roster b s) {r : Row} (hr : r ∈ s.sup.board.tasks)
    (hlive : r.status = "in_progress") (hmoves : Moves s.sup.board s'.sup.board r.id "done")
    (hclaimed : s'.claimed = s.claimed) (hanswered : ∀ x ∈ s'.finished, ∃ task, x = .ok task)
    (hknows : Knows s') :
    Sole roster b s' := by
  obtain ⟨hstatuses, hrouted, hpendingIds⟩ := h.moved hmoves (.inr rfl)
  have hsame : ∀ i, i ∈ pendingIds s'.sup.board ↔ i ∈ pendingIds s.sup.board := by
    intro i
    rw [hpendingIds, and_iff_left_iff_imp]
    rintro hi rfl
    obtain ⟨x, hx, hpending, hid⟩ := (mem_pendingIds _ _).mp hi
    rw [row_unique _ x r hx hr hid, hlive] at hpending
    exact absurd hpending (by decide)
  refine ⟨hstatuses, hrouted, hmoves.ids.trans h.ids, fun id => ?_, hclaimed ▸ h.once, fun id hid => ?_, hanswered,
    hknows⟩
  · rw [hclaimed, h.claimed, hsame]
  · exact h.pending id ((hsame id).mp hid)

/-! ## The loop thread -/

theorem listTasks_nil {b : Board} {status : TaskStatus} {L : List Kanban.Task}
    (h : listTasks b (some status) none none = .ok L) (hL : L.isEmpty = true) :
    ∀ r ∈ b.tasks, r.status ≠ status.value := by
  rw [listTasks_status, Except.ok.injEq] at h
  rw [← h, List.isEmpty_iff, List.map_eq_nil_iff, List.eq_nil_iff_forall_not_mem] at hL
  intro r hr hstatus
  exact hL r ((mem_orderBy _ _).mpr (List.mem_filter.mpr ⟨hr, beq_iff_eq.mpr hstatus⟩))

theorem pendingIds_nil {b : Board} (h : ∀ r ∈ b.tasks, r.status ≠ "pending") :
    pendingIds b = [] := by
  rw [List.eq_nil_iff_forall_not_mem]
  intro id hid
  obtain ⟨r, hr, hpending, -⟩ := (mem_pendingIds b id).mp hid
  exact h r hr hpending

theorem Sole.fill (h : Sole roster b s) {reads : Reads} (hpc : s.pc = .fill)
    (hloop : loop cfg roster maxParallel reads s = some s') : Sole roster b s' := by
  simp only [loop, hpc] at hloop
  split at hloop
  · cases hloop
    exact h.quiet rfl rfl (fun _ hx => hx) trivial
  split at hloop
  · cases hloop
    exact h.quiet rfl rfl (fun _ hx => hx) trivial
  · cases hloop
    exact h.quiet rfl rfl (fun _ hx => hx) trivial
  · next task rest hpeek =>
    obtain ⟨r, hr, hpending, rfl⟩ :=
      unblocked_mem s.sup.board none (some 1) _ hpeek task List.mem_cons_self
    split at hloop
    · next hnone =>
      have hsome := h.routed r hr hpending
      rw [show pickHead roster r.requiredHead = none from hnone] at hsome
      cases hsome
    · cases hloop
      exact h.quiet rfl rfl (fun _ hx => hx) trivial

theorem Sole.peeked (h : Sole roster b s) {reads : Reads} {head : Head} {task : Kanban.Task}
    (hpc : s.pc = .peeked head task) (hloop : loop cfg roster maxParallel reads s = some s') :
    Sole roster b s' := by
  simp only [loop, hpc] at hloop
  rcases claimOne_cases s.sup.board (some task.requiredHead) (workerId cfg head) reads.times.startedAt
    reads.times.claimTs with ⟨-, hboard, hres⟩ | ⟨r, hr, -, hpending, -, -, heq⟩
  · split at hloop
    · next heq =>
      cases hloop
      exact h.quiet ((congrArg Prod.snd heq).symm.trans hboard) rfl (fun _ hx => hx) trivial
    · next heq =>
      cases hloop
      exact h.quiet ((congrArg Prod.snd heq).symm.trans hboard) rfl (fun _ hx => hx) trivial
    · next heq => exact absurd (congrArg Prod.fst heq) (hres _)
  · simp only [heq, Option.some.injEq] at hloop
    subst hloop
    refine h.take hr hpending (claimedBoard_moves _ _ _ _ r) rfl rfl ?_
    by_cases hid : r.id = task.id
    · simp [Knows, Row.toTask, claimRow, hid]
    · simp [Knows, Row.toTask, claimRow, hid]

theorem Sole.settle (h : Sole roster b s) {reads : Reads} (hpc : s.pc = .settle)
    (hloop : loop cfg roster maxParallel reads s = some s') : Sole roster b s' := by
  simp only [loop, hpc] at hloop
  split at hloop
  · next hempty =>
    have hrunning : s.running = [] := List.isEmpty_iff.mp (Bool.and_eq_true_iff.mp hempty).1
    split at hloop
    · cases hloop
      exact h.quiet rfl rfl (fun _ hx => hx) trivial
    · split at hloop
      · cases hloop
        exact h.quiet rfl rfl (fun _ hx => hx) trivial
      · next pending hlist =>
        cases hloop
        refine h.quiet rfl rfl (fun _ hx => hx) ?_
        cases hnil : pending.isEmpty with
        | false => trivial
        | true => exact ⟨pendingIds_nil (listTasks_nil hlist hnil), hrunning⟩
  · cases hloop
    exact h.quiet rfl rfl (fun _ hx => hx) trivial

theorem Sole.drain (h : Sole roster b s) {reads : Reads} {pendingEmpty : Bool}
    (hpc : s.pc = .drain pendingEmpty) (hloop : loop cfg roster maxParallel reads s = some s') :
    Sole roster b s' := by
  -- Neither read found a task, and in between nobody moved one.
  have hknows := h.knows
  simp only [loop, hpc] at hloop
  split at hloop
  · cases hloop
    exact h.quiet rfl rfl (fun _ hx => hx) trivial
  · next inProg hlist =>
    split at hloop
    · next hexit =>
      simp only [Bool.and_eq_true] at hexit
      obtain ⟨⟨hpending, hnone⟩, -⟩ := hexit
      subst hpending
      simp only [Knows, hpc] at hknows
      cases hloop
      refine h.quiet rfl rfl (fun _ hx => hx) fun r hr => ?_
      rcases h.statuses r hr with hp | hp | hp
      · have hmem : r.id ∈ pendingIds s.sup.board := (mem_pendingIds _ _).mpr ⟨r, hr, hp, rfl⟩
        rw [hknows.1] at hmem
        cases hmem
      · exact absurd hp (listTasks_nil hlist hnone r hr)
      · exact hp
    · cases hloop
      exact h.quiet rfl rfl (fun _ hx => hx) trivial

theorem Sole.loop (h : Sole roster b s) {reads : Reads} (hmax : cfg.maxIterations = none)
    (hmarker : reads.marker = false) (hloop : loop cfg roster maxParallel reads s = some s') :
    Sole roster b s' := by
  cases hpc : s.pc with
  | fill => exact h.fill hpc hloop
  | unroutable task =>
    have hknows := h.knows
    simp [Knows, hpc] at hknows
  | peeked head task => exact h.peeked hpc hloop
  | settle => exact h.settle hpc hloop
  | drain pendingEmpty => exact h.drain hpc hloop
  | top =>
    simp only [Parallel.loop, hpc, hmax, hmarker, raiseIfSet_false] at hloop
    cases hloop
    exact h.quiet rfl rfl (fun _ hx => hx) trivial
  | exited raised =>
    simp only [Parallel.loop, hpc] at hloop
    cases hloop
  | _ =>
    simp only [Parallel.loop, hpc] at hloop
    cases hloop
    exact h.quiet rfl rfl (fun _ hx => hx) trivial

/-! ## Every run -/

theorem Sole.answer (h : Sole roster b s) (hi : Inv s) {k : Nat} {answer : Answer} {t : Times}
    (hdone : ∃ o, answer = .ok o ∧ o.status = .done)
    (hstep : step cfg roster maxParallel (.finish k answer t) s = some s') : Sole roster b s' := by
  obtain ⟨o, rfl, hstatus⟩ := hdone
  simp only [step] at hstep
  split at hstep
  · cases hstep
  next f hf =>
  have hhand : f.task.id ∈ atHand s :=
    List.mem_append_left _ (List.mem_map_of_mem (List.mem_of_getElem? hf))
  -- What a worker has is in progress, so its row is there to be written.
  obtain ⟨r, hr, hid, hlive⟩ := hi.live f.task.id hhand
  obtain ⟨hresult, hmoves, -⟩ := dispatchOne_spec r (.ok o) f.task t s.sup
    ((select_eq_some _ _ _).mpr ⟨hr, hid⟩)
  simp only [answerStatus, hstatus] at hmoves
  -- A loop that has seen every row ended has nothing under way.
  have hknows : Knows s → Knows { s with
      sup := (dispatchOne (.ok o) f.task t s.sup).2
      running := s.running.eraseIdx k
      finished := s.finished ++ [(dispatchOne (.ok o) f.task t s.sup).1] } := by
    unfold Knows
    dsimp only
    split
    · exact fun hno => hno
    · rintro ⟨-, hnil⟩
      simp [hnil] at hf
    · intro hall
      have := hall r hr
      rw [hlive] at this
      exact absurd this (by decide)
    · exact fun _ => trivial
  cases hstep
  refine h.finish hr hlive (hid ▸ hmoves) rfl (fun x hx => ?_) (hknows h.knows)
  rcases List.mem_append.mp hx with hx | hx
  · exact h.answered x hx
  · exact ⟨f.task, (List.mem_singleton.mp hx).trans hresult⟩

theorem Sole.collect (h : Sole roster b s) {k : Nat}
    (hstep : step cfg roster maxParallel (.collect k) s = some s') : Sole roster b s' := by
  simp only [step] at hstep
  split at hstep
  · next result hpc hk =>
    obtain ⟨task, rfl⟩ := h.answered _ (List.mem_of_getElem? hk)
    cases hstep
    exact h.quiet rfl rfl (fun x hx => List.mem_of_mem_eraseIdx hx) (by simp [Knows, hpc])
  · cases hstep

theorem Sole.step (h : Sole roster b s) (hi : Inv s) (hmax : cfg.maxIterations = none) {l : Label}
    (hl : Alone l) (hstep : step cfg roster maxParallel l s = some s') : Sole roster b s' := by
  cases l with
  | others task ts => exact hl.elim
  | finish k answer t => exact h.answer hi hl hstep
  | collect k => exact h.collect hstep
  | loop reads => exact h.loop hmax hl hstep

/-- Pending tasks with heads, beside what is DONE. -/
structure Runnable (roster : Roster) (b : Board) : Prop where
  statuses : ∀ r ∈ b.tasks, r.status = "pending" ∨ r.status = "done"
  routed : ∀ r ∈ b.tasks, r.status = "pending" → (pickHead roster r.requiredHead).isSome

theorem Runnable.sole (h : Runnable roster b) : Sole roster b (start b) where
  statuses r hr := (h.statuses r hr).imp_right .inr
  routed := h.routed
  ids := rfl
  claimed id := by simp [start, fresh]
  once := List.nodup_nil
  pending _ hid := hid
  answered x hx := by simp [start] at hx
  knows := trivial

/-- **The parallel loop ends with everything done.** Alone on a board and with an answer DONE to
every dispatch, it never claims a task twice, whatever the order of its threads; and where it ends
by itself, every task is DONE and was claimed once, unless it was DONE before. -/
theorem parallel_ends_done (cfg : Config) (hmax : cfg.maxIterations = none) (roster : Roster)
    (maxParallel : Int) (b : Board) (hb : Runnable roster b) (labels : List Label)
    (halone : ∀ l ∈ labels, Alone l) :
    let s := final (step cfg roster maxParallel) (start b) labels
    s.claimed.Nodup ∧ (∀ id ∈ s.claimed, id ∈ pendingIds b) ∧
      (s.pc = .exited none → AllDone s.sup.board ∧ s.sup.board.tasks.map (·.id) = b.tasks.map (·.id) ∧
        s.claimed.Perm (pendingIds b)) := by
  obtain ⟨-, hsole⟩ : Inv (final (Parallel.step cfg roster maxParallel) (start b) labels) ∧
      Sole roster b (final (Parallel.step cfg roster maxParallel) (start b) labels) :=
    final_invariant
      (fun s l s' (h : Inv s ∧ Sole roster b s) hl hstep =>
        ⟨step_inv l s s' h.1 hstep, h.2.step h.1 hmax hl hstep⟩) (start b) labels
      ⟨start_inv b, hb.sole⟩ halone
  refine ⟨hsole.once, fun id hid => ((hsole.claimed id).mp hid).1, fun hexit => ?_⟩
  have hall : AllDone (final (Parallel.step cfg roster maxParallel) (start b) labels).sup.board := by
    have hknows := hsole.knows
    simpa only [Knows, hexit] using hknows
  have hnil := pendingIds_nil fun r hr hp => absurd (hp.symm.trans (hall r hr)) (by decide)
  refine ⟨hall, hsole.ids, (List.perm_ext_iff_of_nodup hsole.once (pendingIds_nodup b)).mpr fun id => ?_⟩
  rw [hsole.claimed, hnil, and_iff_left List.not_mem_nil]

def PState.ended (s : PState) : Bool :=
  match s.pc with
  | .exited none => true
  | _ => false

theorem PState.ended_iff (s : PState) : s.ended = true ↔ s.pc = .exited none := by
  unfold PState.ended
  split
  · next h => simp [h]
  · next h => exact iff_of_false Bool.false_ne_true h

/-- Two threads at most, and the second task waits for the first. -/
def chainLabels : List Label :=
  List.replicate 6 (.loop raceReads) ++ [.finish 0 (.ok ⟨.done, 0, none, none, none⟩) ⟨0, 0, 0, 0⟩, .collect 0] ++
    List.replicate 7 (.loop raceReads) ++ [.finish 0 (.ok ⟨.done, 0, none, none, none⟩) ⟨0, 0, 0, 0⟩, .collect 0] ++
    List.replicate 5 (.loop raceReads)

def chainEnd : PState := final (step ⟨"supervisor", none, none, 10, false⟩ soloRoster 2) (start chain) chainLabels

theorem chain_ends_done : chainEnd.pc = .exited none ∧ AllDone chainEnd.sup.board := by
  have halone : ∀ l ∈ chainLabels, Alone l := by
    simp [chainLabels, Alone, raceReads]
  obtain ⟨-, -, hends⟩ :=
    parallel_ends_done ⟨"supervisor", none, none, 10, false⟩ rfl soloRoster 2 chain
    ⟨chain_drainable.statuses, chain_drainable.routed⟩ chainLabels halone
  have hexit : chainEnd.pc = .exited none := (PState.ended_iff _).mp (by decide +kernel)
  exact ⟨hexit, (hends hexit).1⟩

end Swarm.Supervisor.Parallel
