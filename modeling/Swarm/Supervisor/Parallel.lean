import Mathlib.Data.List.Perm.Basic
import Swarm.Lib.Runs
import Swarm.Supervisor.WriteBack

/-!
# The parallel loop and its orphans

`_run_parallel` as a machine: the loop thread goes from kanban call to kanban call, a pool
thread writes its answer back, and other processes submit. A task is an orphan when the loop
claimed it and nobody will write it back.
-/

namespace Swarm.Supervisor.Parallel

open Kanban Swarm.Lib

/-! ## The machine -/

structure Future where
  head : Head
  task : Kanban.Task

/-- Where the loop thread is: `fill` is the inner loop, `drain` is between the two reads of
the drain check. -/
inductive Pc
  | top
  | fill
  | unroutable (task : Kanban.Task)
  | peeked (head : Head) (task : Kanban.Task)
  | submitting (head : Head) (claimed : Kanban.Task)
  | settle
  | drain (pendingEmpty : Bool)
  | wait
  | exited (raised : Option Exn)

/-- `running` and `finished` are the futures in flight. `claimed` is a ghost: the ids that
`claim_one` gave this loop. -/
structure PState where
  sup : State
  pc : Pc
  iterations : Nat
  running : List Future
  finished : List (Except Exn Kanban.Task)
  claimed : List String

structure Reads where
  marker : Bool
  onIdle : Except Exn Unit
  times : Times

inductive Label
  | others (task : Kanban.Task) (ts : ℚ)
  | finish (k : Nat) (answer : Answer) (times : Times)
  | collect (k : Nat)
  | loop (reads : Reads)

variable (cfg : Config) (roster : Roster) (maxParallel : Int)

def noHeadFields : List Field := [.status "failed", .error (some "no matching head")]

def PState.exit (s : PState) (raised : Option Exn) : PState := { s with pc := .exited raised }

def loop (reads : Reads) (s : PState) : Option PState :=
  match s.pc with
  | .top =>
    -- `max_iterations`, and the abort marker.
    if cfg.maxIterations.any (· ≤ (s.iterations : Int)) then some (s.exit none)
    else
      match raiseIfSet cfg reads.marker with
      | .error _ => some (s.exit none)
      | .ok () => some { s with pc := .fill }
  | .fill =>
    if maxParallel ≤ ((s.running.length + s.finished.length : Nat) : Int) then
      some { s with pc := .settle }
    else
      match unblocked s.sup.board none (some 1) with
      | .error e => some (s.exit (some (.program e)))
      | .ok [] => some { s with pc := .settle }
      | .ok (task :: _) =>
        match pickHead roster task.requiredHead with
        | none => some { s with pc := .unroutable task }
        | some head => some { s with pc := .peeked head task }
  | .unroutable task =>
    match update s.sup.board task.id noHeadFields none reads.times.updateTs with
    | (.error e, b) => some ({ s with sup := { s.sup with board := b } }.exit (some (.program e)))
    | (.ok _, b) => some { s with sup := { s.sup with board := b }, pc := .fill }
  | .peeked head task =>
    -- The claim may take another task than the peek, which then is left where it is.
    match claimOne s.sup.board (workerId cfg head) (some task.requiredHead) reads.times.startedAt
        reads.times.claimTs with
    | (.error e, b) => some ({ s with sup := { s.sup with board := b } }.exit (some (.program e)))
    | (.ok none, b) => some { s with sup := { s.sup with board := b }, pc := .fill }
    | (.ok (some claimed), b) =>
      some { s with
        sup := { s.sup with board := b }
        claimed := s.claimed ++ [claimed.id]
        pc := if claimed.id ≠ task.id then .fill else .submitting head claimed }
  | .submitting head claimed =>
    some { s with running := s.running ++ [⟨head, claimed⟩], pc := .fill }
  | .settle =>
    if s.running.isEmpty && s.finished.isEmpty then
      match reads.onIdle with
      | .error e => some (s.exit (some e))
      | .ok () =>
        match listTasks s.sup.board (some .pending) none none with
        | .error e => some (s.exit (some (.program e)))
        | .ok pending => some { s with pc := .drain pending.isEmpty }
    else some { s with pc := .wait }
  | .drain pendingEmpty =>
    -- The two reads of `_board_drained` are two steps.
    match listTasks s.sup.board (some .inProgress) none none with
    | .error e => some (s.exit (some (.program e)))
    | .ok inProg =>
      if pendingEmpty && inProg.isEmpty && !cfg.waitForWork then some (s.exit none)
      else some { s with pc := .top, iterations := s.iterations + 1 }
  | .wait => some { s with pc := .top, iterations := s.iterations + 1 }
  | .exited _ => none

/-- One step of anybody. `collect` is the wait handing over one finished future. -/
def step (l : Label) (s : PState) : Option PState :=
  match l with
  | .others task ts => some { s with sup := { s.sup with board := (submit s.sup.board task ts).2 } }
  | .finish k answer t =>
    match s.running[k]? with
    | none => none
    | some f =>
      let out := dispatchOne answer f.task t s.sup
      some { s with
        sup := out.2
        running := s.running.eraseIdx k
        finished := s.finished ++ [out.1] }
  | .collect k =>
    match s.pc, s.finished[k]? with
    | .wait, some result =>
      let s' := { s with finished := s.finished.eraseIdx k }
      match result with
      | .ok _ => some s'
      | .error e => if e.isAbort then some (s'.exit none) else some s'
    | _, _ => none
  | .loop reads => loop cfg roster maxParallel reads s

def start (b : Board) : PState := ⟨fresh b, .top, 0, [], [], []⟩

/-! ## Orphans -/

/-- The tasks that will be written back: in the pool, or about to be. -/
def atHand (s : PState) : List String :=
  s.running.map (·.task.id) ++ match s.pc with | .submitting _ claimed => [claimed.id] | _ => []

def NoOrphan (s : PState) : Prop :=
  ∀ r ∈ s.sup.board.tasks, r.id ∈ s.claimed → r.status = "in_progress" → r.id ∈ atHand s

/-- The step does not claim another task than the one it peeked at, and no dispatch answers
in_progress. -/
def Steady (s : PState) : Label → Prop
  | .loop _ =>
    match s.pc with
    | .peeked _ task => ∀ r, claimPick s.sup.board (some task.requiredHead)
        (pendingRows s.sup.board) = .ok (some r) → r.id = task.id
    | _ => True
  | .finish _ answer _ => answerStatus answer ≠ .inProgress
  | _ => True

structure Inv (s : PState) : Prop where
  nodup : (atHand s).Nodup
  live : ∀ id ∈ atHand s, ∃ r ∈ s.sup.board.tasks, r.id = id ∧ r.status = "in_progress"
  claimed : ∀ id ∈ atHand s, id ∈ s.claimed
  known : ∀ id ∈ s.claimed, ∃ r ∈ s.sup.board.tasks, r.id = id
  unroutable : ∀ task, s.pc = .unroutable task →
    task.id ∉ atHand s ∧ ∃ r ∈ s.sup.board.tasks, r.id = task.id

inductive Effect (s : PState) (l : Label) (s' : PState) : Prop
  /-- The loop moves on, or claims nothing. -/
  | quiet (hsteady : Steady s l) (hboard : s'.sup.board = s.sup.board)
      (hclaimed : s'.claimed = s.claimed) (hhand : atHand s' = atHand s)
      (hpc : ∀ task, s'.pc = .unroutable task → s.pc = .unroutable task ∨
        ∃ r ∈ s.sup.board.tasks, r.status = "pending" ∧ r.id = task.id)
  | submitted (hsteady : Steady s l) (r : Row) (hnew : ∀ x ∈ s.sup.board.tasks, x.id ≠ r.id)
      (hboard : s'.sup.board.tasks = s.sup.board.tasks ++ [r])
      (hclaimed : s'.claimed = s.claimed) (hhand : atHand s' = atHand s) (hpc : s'.pc = s.pc)
  | failed (hsteady : Steady s l) (task : Kanban.Task) (hpc : s.pc = .unroutable task)
      (hmoves : Moves s.sup.board s'.sup.board task.id "failed")
      (hclaimed : s'.claimed = s.claimed) (hhand : atHand s' = atHand s)
      (hpc' : ∀ task, s'.pc ≠ .unroutable task)
  | took (r : Row) (hr : r ∈ s.sup.board.tasks) (hpending : r.status = "pending")
      (task : Kanban.Task) (hsteady : Steady s l ↔ r.id = task.id)
      (hmoves : Moves s.sup.board s'.sup.board r.id "in_progress")
      (hclaimed : s'.claimed = s.claimed ++ [r.id])
      (hhand : atHand s' = if r.id = task.id then atHand s ++ [r.id] else atHand s)
      (hpc' : ∀ task, s'.pc ≠ .unroutable task)
  | finished (id : String) (status : TaskStatus) (hsteady : Steady s l ↔ status ≠ .inProgress)
      (hmoves : Moves s.sup.board s'.sup.board id status.value)
      (hclaimed : s'.claimed = s.claimed) (hhand : (id :: atHand s').Perm (atHand s))
      (hpc : s'.pc = s.pc)

theorem noHeadFields_kept (r : Row) : kept (setAll noHeadFields r) = kept r := by
  simp only [setAll, noHeadFields, List.foldl, Field.set, kept]

variable {cfg roster maxParallel}

theorem fill_effect (reads : Reads) (s s' : PState) (hs : s.pc = .fill)
    (h : loop cfg roster maxParallel reads s = some s') : Effect s (.loop reads) s' := by
  have hsteady : Steady s (.loop reads) := by simp [Steady, hs]
  simp only [loop, hs] at h
  split at h
  · cases h
    exact .quiet hsteady rfl rfl (by simp [atHand, hs]) (by simp)
  split at h
  · cases h
    exact .quiet hsteady rfl rfl (by simp [atHand, PState.exit, hs]) (by simp [PState.exit])
  · cases h
    exact .quiet hsteady rfl rfl (by simp [atHand, hs]) (by simp)
  · next task rest hpeek =>
    obtain ⟨r, hr, hpending, htask⟩ := unblocked_mem s.sup.board none (some 1) _ hpeek task
      List.mem_cons_self
    split at h
    · cases h
      refine .quiet hsteady rfl rfl (by simp [atHand, hs]) ?_
      intro task' htask'
      simp only [Pc.unroutable.injEq] at htask'
      exact Or.inr ⟨r, hr, hpending, by rw [← htask', htask]; rfl⟩
    · cases h
      exact .quiet hsteady rfl rfl (by simp [atHand, hs]) (by simp)

theorem unroutable_effect (reads : Reads) (s s' : PState) (task : Kanban.Task) (hi : Inv s)
    (hs : s.pc = .unroutable task) (h : loop cfg roster maxParallel reads s = some s') :
    Effect s (.loop reads) s' := by
  have hsteady : Steady s (.loop reads) := by simp [Steady, hs]
  obtain ⟨-, r, hr, hid⟩ := hi.unroutable task hs
  have hsel : s.sup.board.select task.id = some r := (select_eq_some _ _ _).mpr ⟨hr, hid⟩
  obtain ⟨result, b', hwrite, hmoves⟩ := update_moves s.sup.board task.id noHeadFields none
    reads.times.updateTs r .failed hsel rfl rfl rfl noHeadFields_kept
  simp only [loop, hs, hwrite] at h
  cases h
  exact .failed hsteady task hs hmoves rfl (by simp [atHand, hs]) (by simp)

theorem peeked_effect (reads : Reads) (s s' : PState) (head : Head) (task : Kanban.Task)
    (hs : s.pc = .peeked head task) (h : loop cfg roster maxParallel reads s = some s') :
    Effect s (.loop reads) s' := by
  simp only [loop, hs] at h
  rcases claimOne_cases s.sup.board (some task.requiredHead) (workerId cfg head)
    reads.times.startedAt reads.times.claimTs with ⟨hnone, hboard, hres⟩ | ⟨r, hr, hpick, hpending, -, -, heq⟩
  · have hsteady : Steady s (.loop reads) := by
      simp only [Steady, hs]
      exact fun r hr => absurd hr (hnone r)
    split at h
    · next heq =>
      cases h
      rw [heq] at hboard
      exact .quiet hsteady hboard rfl (by simp [atHand, PState.exit, hs]) (by simp [PState.exit])
    · next heq =>
      cases h
      rw [heq] at hboard
      exact .quiet hsteady hboard rfl (by simp [atHand, hs]) (by simp)
    · next heq =>
      rw [heq] at hres
      exact absurd rfl (hres _)
  · have hsteady : Steady s (.loop reads) ↔ r.id = task.id := by
      simp only [Steady, hs, hpick, Except.ok.injEq, Option.some.injEq, forall_eq']
    simp only [heq, Option.some.injEq] at h
    subst h
    refine .took r hr hpending task hsteady (claimedBoard_moves _ _ _ _ r) rfl ?_ ?_
    · by_cases hid : r.id = task.id
      · simp [atHand, hs, hid, Row.toTask, claimRow]
      · simp [atHand, hs, hid, Row.toTask, claimRow]
    · intro task'
      by_cases hid : r.id = task.id
      · simp [hid, Row.toTask, claimRow]
      · simp [hid, Row.toTask, claimRow]

theorem loop_effect (reads : Reads) (s s' : PState) (hi : Inv s)
    (h : loop cfg roster maxParallel reads s = some s') : Effect s (.loop reads) s' := by
  cases hs : s.pc with
  | fill => exact fill_effect reads s s' hs h
  | unroutable task => exact unroutable_effect reads s s' task hi hs h
  | peeked head task => exact peeked_effect reads s s' head task hs h
  | submitting head claimed =>
    simp only [loop, hs] at h
    cases h
    exact .quiet (by simp [Steady, hs]) rfl rfl (by simp [atHand, hs]) (by simp)
  | exited raised => simp [loop, hs] at h
  | _ =>
    -- Elsewhere the thread only reads.
    have hsteady : Steady s (.loop reads) := by simp [Steady, hs]
    simp only [loop, hs] at h
    repeat' split at h
    all_goals
      cases h
      exact .quiet hsteady rfl rfl (by simp [atHand, PState.exit, hs]) (by simp [PState.exit])

theorem finish_effect (k : Nat) (answer : Answer) (t : Times) (s s' : PState) (hi : Inv s)
    (h : step cfg roster maxParallel (.finish k answer t) s = some s') :
    Effect s (.finish k answer t) s' := by
  simp only [step] at h
  split at h
  · cases h
  next f hf =>
  obtain ⟨hk, hf⟩ := List.getElem?_eq_some_iff.mp hf
  have hperm : (f :: s.running.eraseIdx k).Perm s.running := hf ▸ List.getElem_cons_eraseIdx_perm hk
  have hhand : f.task.id ∈ atHand s :=
    List.mem_append_left _ (List.mem_map_of_mem (hperm.subset List.mem_cons_self))
  obtain ⟨r, hr, hid, -⟩ := hi.live f.task.id hhand
  obtain ⟨-, hmoves, -⟩ := dispatchOne_spec r answer f.task t s.sup
    ((select_eq_some _ _ _).mpr ⟨hr, hid⟩)
  cases h
  exact .finished f.task.id (answerStatus answer) Iff.rfl hmoves rfl
    ((hperm.map (·.task.id)).append_right _) rfl

theorem step_effect (l : Label) (s s' : PState) (hi : Inv s)
    (h : step cfg roster maxParallel l s = some s') : Effect s l s' := by
  cases l with
  | loop reads => exact loop_effect reads s s' hi h
  | finish k answer t => exact finish_effect k answer t s s' hi h
  | others task ts =>
    simp only [step] at h
    cases h
    rcases submit_cases s.sup.board task ts with hsame | ⟨hnew, htasks, -⟩
    · exact .quiet trivial hsame rfl rfl fun _ htask => Or.inl htask
    · exact .submitted trivial task.toRow hnew htasks rfl rfl rfl
  | collect k =>
    simp only [step] at h
    split at h
    · next hpc _ =>
      repeat' split at h
      all_goals
        cases h
        exact .quiet trivial rfl rfl (by simp [atHand, PState.exit, hpc]) (by simp [PState.exit, hpc])
    · cases h

/-! ## What every run keeps -/

theorem start_inv (b : Board) : Inv (start b) where
  nodup := by simp [start, atHand]
  live := by simp [start, atHand]
  claimed := by simp [start, atHand]
  known := by simp [start]
  unroutable := by simp [start]

theorem Inv.not_atHand {s : PState} (h : Inv s) (r : Row) (hr : r ∈ s.sup.board.tasks)
    (hpending : r.status = "pending") : r.id ∉ atHand s := by
  intro hid
  obtain ⟨x, hx, hxid, hlive⟩ := h.live r.id hid
  rw [row_unique _ x r hx hr hxid, hpending] at hlive
  simp at hlive

theorem live_of_moves {b b' : Board} {id status i : String} (h : Moves b b' id status)
    (hne : i ≠ id) (hlive : ∃ r ∈ b.tasks, r.id = i ∧ r.status = "in_progress") :
    ∃ r ∈ b'.tasks, r.id = i ∧ r.status = "in_progress" := by
  obtain ⟨r, hr, rfl, hstatus⟩ := hlive
  exact ⟨r, h.mem_of_ne r hr hne, rfl, hstatus⟩

theorem step_inv (l : Label) (s s' : PState) (hi : Inv s)
    (h : step cfg roster maxParallel l s = some s') : Inv s' := by
  cases step_effect l s s' hi h with
  | quiet _ hboard hclaimed hhand hpc =>
    -- The board, the claims and what is at hand stay.
    constructor
    · rw [hhand]; exact hi.nodup
    · rw [hhand, hboard]; exact hi.live
    · rw [hhand, hclaimed]; exact hi.claimed
    · rw [hclaimed, hboard]; exact hi.known
    · intro task htask
      rw [hhand, hboard]
      rcases hpc task htask with hold | ⟨r, hr, hpending, hid⟩
      · exact hi.unroutable task hold
      · exact ⟨hid ▸ hi.not_atHand r hr hpending, r, hr, hid⟩
  | submitted _ r _ hboard hclaimed hhand hpc =>
    -- A new row changes nothing about the old ones.
    have hmore : ∀ x ∈ s.sup.board.tasks, x ∈ s'.sup.board.tasks := by
      intro x hx
      rw [hboard]
      exact List.mem_append_left _ hx
    constructor
    · rw [hhand]; exact hi.nodup
    · intro id hid
      rw [hhand] at hid
      obtain ⟨x, hx, hlive⟩ := hi.live id hid
      exact ⟨x, hmore x hx, hlive⟩
    · rw [hhand, hclaimed]; exact hi.claimed
    · intro id hid
      rw [hclaimed] at hid
      obtain ⟨x, hx, hxid⟩ := hi.known id hid
      exact ⟨x, hmore x hx, hxid⟩
    · intro task htask
      rw [hpc] at htask
      obtain ⟨hnot, x, hx, hxid⟩ := hi.unroutable task htask
      exact ⟨hhand ▸ hnot, x, hmore x hx, hxid⟩
  | failed _ task hpc hmoves hclaimed hhand hpc' =>
    -- The task that no head takes is not at hand.
    obtain ⟨hnot, -⟩ := hi.unroutable task hpc
    constructor
    · rw [hhand]; exact hi.nodup
    · intro id hid
      rw [hhand] at hid
      exact live_of_moves hmoves (fun heq => hnot (heq ▸ hid)) (hi.live id hid)
    · rw [hhand, hclaimed]; exact hi.claimed
    · intro id hid
      rw [hclaimed] at hid
      exact hmoves.mem_id id (hi.known id hid)
    · exact fun task' htask' => absurd htask' (hpc' task')
  | took r hr hpending task _ hmoves hclaimed hhand hpc' =>
    have hnot := hi.not_atHand r hr hpending
    -- What is claimed comes to hand only if it is what was peeked at.
    have hmem : ∀ id ∈ atHand s', id ∈ atHand s ∨ id = r.id := by
      intro id hid
      rw [hhand] at hid
      split at hid
      · simpa using hid
      · exact Or.inl hid
    constructor
    · rw [hhand]
      split
      · exact List.nodup_append.mpr ⟨hi.nodup, by simp, by rintro x hx y hy rfl; simp at hy; exact hnot (hy ▸ hx)⟩
      · exact hi.nodup
    · intro id hid
      rcases hmem id hid with hold | rfl
      · exact live_of_moves hmoves (fun heq => hnot (heq ▸ hold)) (hi.live id hold)
      · exact hmoves.moved r hr rfl
    · intro id hid
      rw [hclaimed]
      rcases hmem id hid with hold | rfl
      · exact List.mem_append_left _ (hi.claimed id hold)
      · simp
    · intro id hid
      rw [hclaimed, List.mem_append, List.mem_singleton] at hid
      rcases hid with hold | rfl
      · exact hmoves.mem_id id (hi.known id hold)
      · exact hmoves.mem_id r.id ⟨r, hr, rfl⟩
    · exact fun task' htask' => absurd htask' (hpc' task')
  | finished id status _ hmoves hclaimed hhand hpc =>
    -- A write-back takes its id out of what is at hand.
    have hnodup := hhand.nodup_iff.mpr hi.nodup
    have hsub : ∀ i ∈ atHand s', i ∈ atHand s :=
      fun i hi' => hhand.subset (List.mem_cons_of_mem _ hi')
    constructor
    · exact (List.nodup_cons.mp hnodup).2
    · intro i hi'
      have hne : i ≠ id := fun heq => (List.nodup_cons.mp hnodup).1 (heq ▸ hi')
      exact live_of_moves hmoves hne (hi.live i (hsub i hi'))
    · intro i hi'
      rw [hclaimed]
      exact hi.claimed i (hsub i hi')
    · intro i hi'
      rw [hclaimed] at hi'
      exact hmoves.mem_id i (hi.known i hi')
    · intro task htask
      rw [hpc] at htask
      obtain ⟨hnot, hrow⟩ := hi.unroutable task htask
      exact ⟨fun hin => hnot (hsub _ hin), hmoves.mem_id task.id hrow⟩

theorem step_noOrphan_iff (l : Label) (s s' : PState) (hi : Inv s) (hgood : NoOrphan s)
    (h : step cfg roster maxParallel l s = some s') : NoOrphan s' ↔ Steady s l := by
  cases step_effect l s s' hi h with
  | quiet hsteady hboard hclaimed hhand _ =>
    refine iff_of_true ?_ hsteady
    intro r hr
    rw [hboard] at hr
    rw [hclaimed, hhand]
    exact hgood r hr
  | submitted hsteady r hnew hboard hclaimed hhand _ =>
    refine iff_of_true ?_ hsteady
    intro x hx hxc hlive
    rw [hboard, List.mem_append, List.mem_singleton] at hx
    rw [hclaimed] at hxc
    rw [hhand]
    rcases hx with hx | rfl
    · exact hgood x hx hxc hlive
    · obtain ⟨y, hy, hyid⟩ := hi.known x.id hxc
      exact absurd hyid (hnew y hy)
  | failed hsteady task _ hmoves hclaimed hhand _ =>
    refine iff_of_true ?_ hsteady
    intro x hx hxc hlive
    rw [hclaimed] at hxc
    rw [hhand]
    rcases hmoves.row x hx with ⟨-, hfailed, -⟩ | ⟨-, hold⟩
    · rw [hfailed] at hlive; simp at hlive
    · exact hgood x hold hxc hlive
  | took r hr hpending task hsteady hmoves hclaimed hhand _ =>
    rw [hsteady]
    constructor
    · intro hgood'
      by_contra hne
      -- The claimed row is live, and nobody has it.
      obtain ⟨x, hx, hxid, hlive⟩ := hmoves.moved r hr rfl
      have hin := hgood' x hx (by rw [hclaimed, hxid]; simp) hlive
      rw [hhand, if_neg hne, hxid] at hin
      exact hi.not_atHand r hr hpending hin
    · intro heq x hx hxc hlive
      rw [hhand, if_pos heq]
      rcases hmoves.row x hx with ⟨hxid, -, -⟩ | ⟨hne, hold⟩
      · rw [hxid]; simp
      · rw [hclaimed, List.mem_append, List.mem_singleton] at hxc
        exact List.mem_append_left _ (hgood x hold (hxc.resolve_right hne) hlive)
  | finished id status hsteady hmoves hclaimed hhand _ =>
    rw [hsteady]
    -- The row that is written back is no longer at hand, so it must not stay live.
    have hid : id ∈ atHand s := hhand.subset List.mem_cons_self
    constructor
    · rintro hgood' rfl
      obtain ⟨r, hr, hrid, -⟩ := hi.live id hid
      obtain ⟨x, hx, hxid, hlive⟩ := hmoves.moved r hr hrid
      have hin := hgood' x hx (by rw [hclaimed, hxid]; exact hi.claimed id hid) hlive
      rw [hxid] at hin
      exact (List.nodup_cons.mp (hhand.nodup_iff.mpr hi.nodup)).1 hin
    · intro hstatus x hx hxc hlive
      rw [hclaimed] at hxc
      rcases hmoves.row x hx with ⟨-, hxs, -⟩ | ⟨hne, hold⟩
      · rw [hxs] at hlive
        exact absurd ((TaskStatus.value_inj status .inProgress).mp hlive) hstatus
      · have := hhand.symm.subset (hgood x hold hxc hlive)
        exact (List.mem_cons.mp this).resolve_left hne

/-- **Orphans come from unsteady steps only.** A run of the parallel loop, with any writes of
its threads and any submits in between, leaves no orphan in any state exactly when each claim
takes the task of its peek, or none, and no dispatch answers in_progress. -/
theorem noOrphan_iff_steady (cfg : Config) (roster : Roster) (maxParallel : Int) (b : Board)
    (labels : List Label) :
    (∀ p ∈ path (step cfg roster maxParallel) (start b) labels, NoOrphan p.after) ↔
      ∀ p ∈ path (step cfg roster maxParallel) (start b) labels, Steady p.before p.label :=
  path_good_iff (fun s l s' hi h => step_inv l s s' hi h)
    (fun s l s' hi hgood h => step_noOrphan_iff l s s' hi hgood h) (start b) labels (start_inv b)
    (by simp [NoOrphan, start])

/-! ## A run that makes one -/

instance : DecidablePred NoOrphan := fun s => by unfold NoOrphan; infer_instance

/-- `t2` comes first but waits for `t1`. -/
def race : Board where
  tasks := [Task.toRow { Task.new "t1" 0 with priority := 5 },
    Task.toRow { Task.new "t2" 1 with priority := 1, blockedBy := .ofStrs ["t1"] },
    Task.toRow { Task.new "t3" 2 with priority := 9 }]
  timeline := []
  primaryKey := by decide

def raceReads : Reads := ⟨false, .ok (), ⟨0, 0, 0, 0⟩⟩

/-- `t1` runs and the loop peeks at `t3`; then `t1` is DONE, so the claim takes `t2`. -/
def raceLabels : List Label :=
  List.replicate 5 (.loop raceReads) ++
    [.finish 0 (.ok ⟨.done, 0, none, none, none⟩) ⟨0, 0, 0, 0⟩, .loop raceReads]

theorem race_orphans :
    ¬ ∀ p ∈ path (step ⟨"supervisor", none, none, 10,
      false⟩ [("builder", ⟨"builder"⟩)] 2) (start race)
      raceLabels, NoOrphan p.after := by
  decide +kernel

end Swarm.Supervisor.Parallel
