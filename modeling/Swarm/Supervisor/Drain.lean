import Swarm.Lib.Dag
import Swarm.Supervisor.WriteBack

/-!
# The serial loop drains the board

One step of the loop takes the first ready task from pending to DONE, and an acyclic board
with a pending task always has a ready one.
-/

namespace Swarm.Supervisor

open Kanban Swarm.Lib

/-! ## Boards that drain -/

def pendingIds (b : Board) : List String := (b.tasks.filter (·.status == "pending")).map (·.id)

def Waits (b : Board) (i j : String) : Prop :=
  ∃ r ∈ b.tasks, ∃ d ∈ b.tasks, r.id = i ∧ d.id = j ∧
    r.status = "pending" ∧ d.status = "pending" ∧ j ∈ blockersOf r

structure Drainable (roster : Roster) (b : Board) : Prop where
  statuses : ∀ r ∈ b.tasks, r.status = "pending" ∨ r.status = "done"
  columns : b.ColumnsOk
  onBoard : ∀ r ∈ b.tasks, r.status = "pending" → ∀ id ∈ blockersOf r, ∃ d ∈ b.tasks, d.id = id
  acyclic : Acyclic (Waits b)
  routed : ∀ r ∈ b.tasks, r.status = "pending" → (pickHead roster r.requiredHead).isSome

theorem pendingIds_nodup (b : Board) : (pendingIds b).Nodup :=
  b.primaryKey.sublist (List.filter_sublist.map _)

theorem mem_pendingIds (b : Board) (id : String) :
    id ∈ pendingIds b ↔ ∃ r ∈ b.tasks, r.status = "pending" ∧ r.id = id := by
  simp [pendingIds, and_assoc]

variable {roster : Roster} {b : Board}

theorem Drainable.statusesOk (h : Drainable roster b) : b.StatusesOk := by
  intro r hr
  rcases h.statuses r hr with hs | hs
  · exact ⟨.pending, hs⟩
  · exact ⟨.done, hs⟩

theorem Drainable.ready_of_minimal (h : Drainable roster b) (r : Row) (hr : r ∈ b.tasks)
    (hpending : r.status = "pending") (hmin : ∀ j ∈ pendingIds b, ¬ Waits b r.id j) :
    r ∈ readyRows b none := by
  rw [mem_readyRows]
  refine ⟨hr, (ready_iff b r hr).mpr ⟨hr, hpending, fun id hid => ?_⟩, rfl⟩
  obtain ⟨d, hd, rfl⟩ := h.onBoard r hr hpending id hid
  refine ⟨d, hd, rfl, (h.statuses d hd).resolve_left fun hdp => ?_⟩
  exact hmin d.id ((mem_pendingIds b d.id).mpr ⟨d, hd, hdp, rfl⟩)
    ⟨r, hr, d, hd, rfl, rfl, hpending, hdp, hid⟩

theorem Drainable.exists_ready (h : Drainable roster b) (hne : pendingIds b ≠ []) :
    ∃ r, (readyRows b none).head? = some r := by
  obtain ⟨i, hi, hmin⟩ := h.acyclic.exists_minimal (pendingIds b) hne
  obtain ⟨r, hr, hpending, rfl⟩ := (mem_pendingIds b i).mp hi
  have hready := h.ready_of_minimal r hr hpending hmin
  cases hrows : readyRows b none with
  | nil => simp [hrows] at hready
  | cons x rest => exact ⟨x, rfl⟩

/-! ## Finishing one task -/

section Settled

variable {b' : Board} {id status : String} (h : Moves b b' id status) (hs : status ≠ "pending")
include h hs

theorem pending_of_moved (r : Row) (hr : r ∈ b'.tasks) (hp : r.status = "pending") :
    r.id ≠ id ∧ r ∈ b.tasks := by
  rcases h.row r hr with ⟨-, hd, -⟩ | hold
  · exact absurd (hd.symm.trans hp) hs
  · exact hold

theorem mem_pendingIds_moved (i : String) : i ∈ pendingIds b' ↔ i ∈ pendingIds b ∧ i ≠ id := by
  rw [mem_pendingIds, mem_pendingIds]
  constructor
  · rintro ⟨r, hr, hp, rfl⟩
    obtain ⟨hne, hold⟩ := pending_of_moved h hs r hr hp
    exact ⟨⟨r, hold, hp, rfl⟩, hne⟩
  · rintro ⟨⟨r, hr, hp, rfl⟩, hne⟩
    exact ⟨r, h.mem_of_ne r hr hne, hp, rfl⟩

theorem pendingIds_perm (hid : id ∈ pendingIds b) : (id :: pendingIds b').Perm (pendingIds b) := by
  rw [List.perm_ext_iff_of_nodup _ (pendingIds_nodup b)]
  · intro i
    rw [List.mem_cons, mem_pendingIds_moved h hs]
    constructor
    · rintro (rfl | ⟨hi, -⟩)
      · exact hid
      · exact hi
    · intro hi
      by_cases heq : i = id
      · exact Or.inl heq
      · exact Or.inr ⟨hi, heq⟩
  · refine List.nodup_cons.mpr ⟨fun hmem => ?_, pendingIds_nodup b'⟩
    exact ((mem_pendingIds_moved h hs id).mp hmem).2 rfl

end Settled

theorem Drainable.finish {b' : Board} {id : String} (h : Drainable roster b)
    (hf : Moves b b' id "done") : Drainable roster b' where
  statuses r hr := by
    rcases hf.row r hr with ⟨-, hd, -⟩ | ⟨-, hold⟩
    · exact Or.inr hd
    · exact h.statuses r hold
  columns r hr hp := h.columns r (pending_of_moved hf (by decide) r hr hp).2 hp
  onBoard r hr hp i hi :=
    hf.mem_id i (h.onBoard r (pending_of_moved hf (by decide) r hr hp).2 hp i hi)
  acyclic := by
    apply h.acyclic.mono
    rintro i j ⟨r, hr, d, hd, hi, hj, hrp, hdp, hblock⟩
    exact ⟨r, (pending_of_moved hf (by decide) r hr hrp).2, d,
      (pending_of_moved hf (by decide) d hd hdp).2, hi, hj, hrp, hdp, hblock⟩
  routed r hr hp := h.routed r (pending_of_moved hf (by decide) r hr hp).2 hp

/-! ## One step -/

variable (cfg : Config) (conductor : Conductor) (t : Times) (s : State)

def callFor (head : Head) (r : Row) : Dispatch where
  head := head
  task := (claimRow (workerId cfg head) t.startedAt r).toTask .inProgress
  peeked := s.board
  board := claimedBoard s.board (workerId cfg head) t.startedAt t.claimTs r

@[simp] theorem raiseIfSet_false : raiseIfSet cfg false = .ok () := by
  cases h : cfg.abortRoot <;> simp [raiseIfSet, h]

theorem step_spec (hcols : s.board.ColumnsOk) (hstat : s.board.StatusesOk) (r : Row)
    (hr : (readyRows s.board none).head? = some r) (head : Head)
    (hhead : pickHead roster r.requiredHead = some head) :
    step cfg roster conductor false t s =
      let call := callFor cfg t s head r
      let out := dispatchOne (conductor s.calls.length head call.task) call.task t
        { s with board := call.board, calls := s.calls ++ [call] }
      (out.1.map some, out.2) := by
  obtain ⟨L, hL⟩ := unblocked_total s.board none hcols hstat (some 1)
  have hfirst := unblocked_head s.board none hcols (some 1) rfl L hL
  rw [hr] at hfirst
  obtain ⟨rest, rfl⟩ := List.head?_eq_some_iff.mp hfirst
  have hpeek : (r.toTask .pending).requiredHead = r.requiredHead := rfl
  have hclaim := claimOne_spec s.board (some r.requiredHead) hcols (workerId cfg head)
    t.startedAt t.claimTs
  rw [readyRows_own_head s.board r hr] at hclaim
  have hsame : ((claimRow (workerId cfg head) t.startedAt r).toTask .inProgress).id =
      (r.toTask .pending).id := rfl
  simp only [step, raiseIfSet_false, hL, hpeek, hhead, hclaim]
  rw [if_neg (not_not.mpr hsame)]
  rfl

/-- The call is for the first ready task, and all that it waits for is DONE. -/
structure FirstReady (d : Dispatch) (r : Row) : Prop where
  first : (readyRows d.peeked none).head? = some r
  least : ∀ x ∈ d.peeked.tasks, ready d.peeked x → rowLe r x
  task : d.task.id = r.id
  blockers : ∀ id ∈ blockersOf r, ∃ x ∈ d.board.tasks, x.id = id ∧ x.status = "done"

theorem callFor_firstReady (head : Head) (r : Row)
    (hr : (readyRows s.board none).head? = some r) : FirstReady (callFor cfg t s head r) r where
  first := hr
  least x hx hready := readyRows_head_le s.board none r x hr ((mem_readyRows _ _ _).mpr ⟨hx, hready, rfl⟩)
  task := rfl
  blockers id hid := by
    obtain ⟨hmem, hready, -⟩ := (mem_readyRows s.board none r).mp (List.mem_of_head? hr)
    obtain ⟨-, hpending, hblockers⟩ := (ready_iff s.board r hmem).mp hready
    obtain ⟨x, hx, hxid, hdone⟩ := hblockers id hid
    refine ⟨x, ?_, hxid, hdone⟩
    -- The claim moves a pending row, so it leaves a DONE one as it is.
    apply (claimedBoard_moves s.board t.claimTs (workerId cfg head) t.startedAt r).mem_of_ne x hx
    intro hsame
    rw [row_unique s.board x r hx hmem hsame, hpending] at hdone
    simp at hdone

theorem step_finishes (h : Drainable roster s.board) (hdone : ∀ n head task, ∃ o,
      conductor n head task = .ok o ∧ o.status = .done) (r : Row)
    (hr : (readyRows s.board none).head? = some r) :
    ∃ d s', step cfg roster conductor false t s = (.ok (some d.task), s') ∧
      s'.calls = s.calls ++ [d] ∧ FirstReady d r ∧ Moves s.board s'.board r.id "done" := by
  obtain ⟨hmem, hready, -⟩ := (mem_readyRows s.board none r).mp (List.mem_of_head? hr)
  have hpending : r.status = "pending" := ((ready_iff s.board r hmem).mp hready).2.1
  obtain ⟨head, hhead⟩ := Option.isSome_iff_exists.mp (h.routed r hmem hpending)
  obtain ⟨o, ho, hstatus⟩ := hdone s.calls.length head (callFor cfg t s head r).task
  let call := callFor cfg t s head r
  obtain ⟨hresult, hmoves, hcalls⟩ := dispatchOne_spec _ (.ok o) call.task t
    { s with board := call.board, calls := s.calls ++ [call] }
    (select_claimedBoard s.board (workerId cfg head) t.startedAt t.claimTs r hmem)
  have hstep := step_spec cfg conductor t s h.columns h.statusesOk r hr head hhead
  have hclaimed := claimedBoard_moves s.board t.claimTs (workerId cfg head) t.startedAt r
  simp only [answerStatus, hstatus] at hmoves
  refine ⟨call, _, ?_, hcalls, callFor_firstReady cfg t s head r hr, hclaimed.trans hmoves⟩
  rw [hstep]
  simp only [ho, call, hresult]
  rfl

theorem step_idle (h : Drainable roster s.board) (hnil : pendingIds s.board = []) :
    step cfg roster conductor false t s = (.ok none, s) := by
  obtain ⟨L, hL⟩ := unblocked_total s.board none h.columns h.statusesOk (some 1)
  have hfirst := unblocked_head s.board none h.columns (some 1) rfl L hL
  have hrows : readyRows s.board none = [] := by
    apply List.eq_nil_iff_forall_not_mem.mpr
    intro r hr
    obtain ⟨hmem, hready, -⟩ := (mem_readyRows s.board none r).mp hr
    have hpending := ((ready_iff s.board r hmem).mp hready).2.1
    have := (mem_pendingIds s.board r.id).mpr ⟨r, hmem, hpending, rfl⟩
    simp [hnil] at this
  rw [hrows, List.head?_nil, Option.map_none, List.head?_eq_none_iff] at hfirst
  simp [step, raiseIfSet_false, hL, hfirst]

theorem drained_spec (b : Board) :
    drained b = .ok (b.tasks.all fun r => r.status != "pending" && r.status != "in_progress") := by
  have hempty : ∀ s : TaskStatus, ((orderBy (b.tasks.filter (·.status == s.value))).map
      (·.toTask s)).isEmpty = b.tasks.all (·.status != s.value) := by
    intro s
    rw [Bool.eq_iff_iff, List.isEmpty_iff, List.map_eq_nil_iff, List.eq_nil_iff_forall_not_mem]
    simp [mem_orderBy]
  simp only [drained, listTasks_status, bind, Except.bind, hempty]
  apply congrArg Except.ok
  rw [Bool.eq_iff_iff]
  simp only [Bool.and_eq_true, List.all_eq_true]
  exact forall₂_and.symm

/-! ## The whole run -/

theorem run_drains_from (h : Drainable roster s.board)
    (hcfg : cfg.maxIterations = none ∧ cfg.waitForWork = false)
    (hdone : ∀ n head task, ∃ o, conductor n head task = .ok o ∧ o.status = .done)
    (clock : Nat → Times) (onIdle : Nat → Board → Except Exn Unit × Board)
    (hidle : ∀ i b, onIdle i b = (.ok (), b)) (i : Nat) :
    ∃ s' new, (∀ fuel, (pendingIds s.board).length < fuel →
        run cfg roster conductor (fun _ => false) clock onIdle fuel i s = some (.ok (), s')) ∧
      (∀ r ∈ s'.board.tasks, r.status = "done") ∧
      s'.board.tasks.map (·.id) = s.board.tasks.map (·.id) ∧
      s'.calls = s.calls ++ new ∧ (new.map (·.task.id)).Perm (pendingIds s.board) ∧
      ∀ d ∈ new, ∃ r, FirstReady d r := by
  obtain ⟨hmax, hwait⟩ := hcfg
  -- The measure is the number of pending tasks.
  induction hn : (pendingIds s.board).length generalizing s i with
  | zero =>
    have hnil : pendingIds s.board = [] := List.length_eq_zero_iff.mp hn
    have hall : ∀ r ∈ s.board.tasks, r.status = "done" := by
      intro r hr
      refine (h.statuses r hr).resolve_left fun hp => ?_
      have := (mem_pendingIds s.board r.id).mpr ⟨r, hr, hp, rfl⟩
      simp [hnil] at this
    have hdrained : drained s.board = .ok true := by
      rw [drained_spec, Except.ok.injEq, List.all_eq_true]
      intro r hr
      rw [hall r hr]
      decide
    refine ⟨s, [], fun fuel hfuel => ?_, hall, rfl, by simp, by simp [hnil], by simp⟩
    obtain ⟨fuel, rfl⟩ := Nat.exists_eq_add_of_lt hfuel
    simp [run, hmax, step_idle cfg conductor _ s h hnil, hidle, hdrained, hwait]
  | succ n ih =>
    have hne : pendingIds s.board ≠ [] := by
      intro hnil
      simp [hnil] at hn
    obtain ⟨r, hr⟩ := h.exists_ready hne
    obtain ⟨hmem, hready, -⟩ := (mem_readyRows s.board none r).mp (List.mem_of_head? hr)
    have hpending := ((ready_iff s.board r hmem).mp hready).2.1
    obtain ⟨d, s₁, hstep, hcalls, hfirst, hmoves⟩ :=
      step_finishes cfg conductor (clock i) s h hdone r hr
    have hperm :=
      pendingIds_perm hmoves (by decide) ((mem_pendingIds _ _).mpr ⟨r, hmem, hpending, rfl⟩)
    have hlen : (pendingIds s₁.board).length = n := by
      have := hperm.length_eq
      rw [List.length_cons, hn] at this
      omega
    obtain ⟨s', new, hrun, hall, hids, hnew, hperm', hfirst'⟩ :=
      ih s₁ (h.finish hmoves) (i + 1) hlen
    refine ⟨s', d :: new, fun fuel hfuel => ?_, hall, hids.trans hmoves.ids, ?_, ?_, ?_⟩
    · obtain ⟨fuel, rfl⟩ := Nat.exists_eq_add_of_lt hfuel
      have := hrun (n + 1 + fuel) (by omega)
      simp [run, hmax, hstep, this]
    · rw [hnew, hcalls, List.append_assoc, List.singleton_append]
    · rw [List.map_cons, hfirst.task]
      exact (hperm'.cons r.id).trans hperm
    · exact List.forall_mem_cons.mpr ⟨⟨r, hfirst⟩, hfirst'⟩

/-- **The serial loop drains the board.** With an answer DONE to every dispatch, an acyclic
board ends with every task DONE, each pending task dispatched once, the first ready one each
time. -/
theorem run_drains (b : Board) (roster : Roster) (h : Drainable roster b) (cfg : Config)
    (hcfg : cfg.maxIterations = none ∧ cfg.waitForWork = false) (conductor : Conductor)
    (hdone : ∀ n head task, ∃ o, conductor n head task = .ok o ∧ o.status = .done)
    (clock : Nat → Times) (onIdle : Nat → Board → Except Exn Unit × Board)
    (hidle : ∀ i b, onIdle i b = (.ok (), b)) :
    ∃ s, (∀ fuel, (pendingIds b).length < fuel →
        run cfg roster conductor (fun _ => false) clock onIdle fuel 0 (fresh b) =
          some (.ok (), s)) ∧
      (∀ r ∈ s.board.tasks, r.status = "done") ∧
      s.board.tasks.map (·.id) = b.tasks.map (·.id) ∧
      (s.calls.map (·.task.id)).Perm (pendingIds b) ∧
      ∀ d ∈ s.calls, ∃ r, FirstReady d r := by
  obtain ⟨s, new, hrun, hall, hids, hnew, hperm, hfirst⟩ :=
    run_drains_from cfg conductor (fresh b) h hcfg hdone clock onIdle hidle 0
  have hcalls : s.calls = new := by simpa [fresh] using hnew
  rw [← hcalls] at hperm hfirst
  exact ⟨s, hrun, hall, hids, hperm, hfirst⟩

/-- Two pending tasks, the first in the table waiting for the second. -/
def chain : Board where
  tasks := [Task.toRow { Task.new "b" 0 with blockedBy := .ofStrs ["a"] },
    Task.toRow (Task.new "a" 1)]
  timeline := []
  primaryKey := by decide

def soloRoster : Roster := [("builder", ⟨"builder"⟩)]

theorem chain_drainable : Drainable soloRoster chain where
  statuses r hr := by
    rcases List.mem_pair.mp hr with rfl | rfl
    · exact Or.inl rfl
    · exact Or.inl rfl
  columns r hr _ := by
    rcases List.mem_pair.mp hr with rfl | rfl
    · exact ⟨["a"], rfl⟩
    · exact ⟨[], rfl⟩
  onBoard r hr _ id hid := by
    rcases List.mem_pair.mp hr with rfl | rfl
    · obtain rfl : id = "a" := List.mem_singleton.mp hid
      exact ⟨_, List.mem_pair.mpr (Or.inr rfl), rfl⟩
    · exact absurd hid List.not_mem_nil
  acyclic := by
    apply Acyclic.of_rank fun id => if id = "b" then 1 else 0
    rintro i j ⟨r, hr, -, -, rfl, -, -, -, hj⟩
    rcases List.mem_pair.mp hr with rfl | rfl
    · obtain rfl : j = "a" := List.mem_singleton.mp hj
      decide
    · exact absurd hj List.not_mem_nil
  routed r hr _ := by
    rcases List.mem_pair.mp hr with rfl | rfl
    · rfl
    · rfl

theorem chain_drains :
    ∃ s, run ⟨"supervisor", none, none, 10,
      false⟩ soloRoster (fun _ _ _ => .ok ⟨.done, 0, none, none, none⟩)
        (fun _ => false) (fun _ => ⟨0, 0, 0, 0⟩) (fun _ b => (.ok (), b)) 3 0 (fresh chain) =
          some (.ok (), s) ∧
      ∀ r ∈ s.board.tasks, r.status = "done" := by
  obtain ⟨s, hrun, hall, -⟩ := run_drains chain soloRoster chain_drainable
    ⟨"supervisor", none, none, 10, false⟩ ⟨rfl, rfl⟩ (fun _ _ _ => .ok ⟨.done, 0, none, none, none⟩)
    (fun _ _ _ => ⟨_, rfl, rfl⟩) (fun _ => ⟨0, 0, 0, 0⟩) (fun _ b => (.ok (), b)) fun _ _ => rfl
  exact ⟨s, hrun 3 (by decide), hall⟩

end Swarm.Supervisor
