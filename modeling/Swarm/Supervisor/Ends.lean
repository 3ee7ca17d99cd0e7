import Swarm.Supervisor.Drain

/-!
# When the serial loop ends

The exit test of `run` counts pending tasks, and a pending task is dispatched only when its
blockers are DONE. So the loop ends exactly when every pending task can be dispatched.
-/

namespace Swarm.Supervisor

open Kanban

/-! ## The condition -/

/-- DONE, FAILED, CANCELLED or NEEDS_REVIEW, or an exception that the loop records. -/
def Settles : Answer → Prop
  | .ok o => o.status = .done ∨ o.status = .failed ∨ o.status = .cancelled ∨ o.status = .needsReview
  | .error e => e.cls ≠ .abortRequested

/-- The task is DONE, or it is pending, all its blockers finish, and the answer to it is DONE. -/
inductive Finishes (b : Board) (outcome : String → Answer) : String → Prop
  | done (r : Row) : r ∈ b.tasks → r.status = "done" → Finishes b outcome r.id
  | dispatched (r : Row) : r ∈ b.tasks → r.status = "pending" →
      answerStatus (outcome r.id) = .done → (∀ j ∈ blockersOf r, Finishes b outcome j) →
      Finishes b outcome r.id

/-- No task is in progress, and every pending one has a head and waits only for tasks that
finish. -/
structure Completable (roster : Roster) (b : Board) (outcome : String → Answer) : Prop where
  idle : ∀ r ∈ b.tasks, r.status ≠ "in_progress"
  routed : ∀ r ∈ b.tasks, r.status = "pending" → (pickHead roster r.requiredHead).isSome
  blockers : ∀ r ∈ b.tasks, r.status = "pending" → ∀ j ∈ blockersOf r, Finishes b outcome j

theorem Settles.settled {answer : Answer} (h : Settles answer) :
    (answerStatus answer).value ≠ "pending" ∧ (answerStatus answer).value ≠ "in_progress" := by
  cases answer with
  | ok o => rcases h with h | h | h | h <;> simp [answerStatus, h, TaskStatus.value]
  | error e => simp [answerStatus, if_neg h, TaskStatus.value]

theorem Settles.result {answer : Answer} (h : Settles answer) (claimed : Kanban.Task) :
    answerResult claimed answer = .ok claimed := by
  cases answer with
  | ok o => rfl
  | error e => exact if_neg h

/-! ## One step -/

section Step

variable (cfg : Config) (roster : Roster) (conductor : Conductor) (t : Times) (s : State)

/-- What the step would dispatch: the first ready task, if a head takes it. -/
def next (b : Board) : Option (Row × Head) :=
  (readyRows b none).head?.bind fun r => (pickHead roster r.requiredHead).map fun head => (r, head)

theorem next_spec {b : Board} {r : Row} {head : Head} (h : next roster b = some (r, head)) :
    (readyRows b none).head? = some r ∧ pickHead roster r.requiredHead = some head ∧ r ∈ b.tasks ∧
      r.status = "pending" ∧
      ∀ id ∈ blockersOf r, ∃ d ∈ b.tasks, d.id = id ∧ d.status = "done" := by
  obtain ⟨x, hr, hx⟩ := Option.bind_eq_some_iff.mp h
  obtain ⟨y, hhead, hy⟩ := Option.map_eq_some_iff.mp hx
  obtain ⟨rfl, rfl⟩ := Prod.mk.inj hy
  obtain ⟨hmem, hready, -⟩ := (mem_readyRows b none x).mp (List.mem_of_head? hr)
  obtain ⟨-, hpending, hblockers⟩ := (ready_iff b x hmem).mp hready
  exact ⟨hr, hhead, hmem, hpending, hblockers⟩

theorem step_quiet (hcols : s.board.ColumnsOk) (hstat : s.board.StatusesOk)
    (hnext : next roster s.board = none) : step cfg roster conductor false t s = (.ok none, s) := by
  obtain ⟨L, hL⟩ := unblocked_total s.board none hcols hstat (some 1)
  have hfirst := unblocked_head s.board none hcols (some 1) rfl L hL
  cases hr : (readyRows s.board none).head? with
  | none =>
    rw [hr, Option.map_none, List.head?_eq_none_iff] at hfirst
    simp [step, raiseIfSet_false, hL, hfirst]
  | some r =>
    rw [hr] at hfirst
    obtain ⟨rest, rfl⟩ := List.head?_eq_some_iff.mp hfirst
    have hpeek : (r.toTask .pending).requiredHead = r.requiredHead := rfl
    have hhead : pickHead roster r.requiredHead = none := by simpa [next, hr] using hnext
    simp only [step, raiseIfSet_false, hL, hpeek, hhead]

/-- A poll from `s` to `s'` finds nothing to do, or makes one dispatch. -/
inductive Poll (s' : State) : Prop
  | quiet (hnext : next roster s.board = none)
      (hstep : step cfg roster conductor false t s = (.ok none, s)) (hsame : s' = s)
  | dispatched (r : Row) (call : Dispatch) (hnext : next roster s.board = some (r, call.head))
      (hid : call.task.id = r.id)
      (hstep : step cfg roster conductor false t s = (.ok (some call.task), s'))
      (hcalls : s'.calls = s.calls ++ [call]) (hpending : r.id ∈ pendingIds s.board)
      (hmoves : Moves s.board s'.board r.id
        (answerStatus (conductor s.calls.length call.head call.task)).value)

theorem step_poll (hcols : s.board.ColumnsOk) (hstat : s.board.StatusesOk)
    (hsettles : ∀ n head task, Settles (conductor n head task)) :
    Poll cfg roster conductor t s (step cfg roster conductor false t s).2 := by
  cases hnext : next roster s.board with
  | none =>
    have hquiet := step_quiet cfg roster conductor t s hcols hstat hnext
    exact .quiet hnext hquiet (congrArg Prod.snd hquiet)
  | some pick =>
    obtain ⟨r, head⟩ := pick
    obtain ⟨hr, hhead, hmem, hpending, -⟩ := next_spec roster hnext
    let call := callFor cfg t s head r
    let answer := conductor s.calls.length head call.task
    obtain ⟨hresult, hmoves, hcalls⟩ := dispatchOne_spec _ answer call.task t
      { s with board := call.board, calls := s.calls ++ [call] }
      (select_claimedBoard s.board (workerId cfg head) t.startedAt t.claimTs r hmem)
    have hstep := step_spec cfg conductor t s hcols hstat r hr head hhead
    have hclaimed := claimedBoard_moves s.board t.claimTs (workerId cfg head) t.startedAt r
    refine .dispatched r call hnext rfl ?_ ?_ ((mem_pendingIds s.board r.id).mpr ⟨r, hmem, hpending, rfl⟩) ?_
    · rw [hstep]
      simp only [call, answer] at hresult
      simp only [hresult, (hsettles _ _ _).result]
      rfl
    · rw [hstep]
      exact hcalls
    · rw [hstep]
      exact hclaimed.trans hmoves

end Step

/-! ## What the loop has dispatched so far -/

section Progress

variable (roster : Roster) (b : Board) (outcome : String → Answer)

structure Dispatched (now : Board) (r : Row) : Prop where
  pending : r.status = "pending"
  routed : (pickHead roster r.requiredHead).isSome
  blockers : ∀ j ∈ blockersOf r, Finishes b outcome j
  settles : Settles (outcome r.id)
  answered : ∃ x ∈ now.tasks, x.id = r.id ∧ x.status = (answerStatus (outcome r.id)).value

/-- A task of the board is as it was, or has been dispatched. -/
structure Progress (now : Board) : Prop where
  ids : now.tasks.map (·.id) = b.tasks.map (·.id)
  each : ∀ r ∈ b.tasks, r ∈ now.tasks ∨ Dispatched roster b outcome now r

variable {roster b outcome} {now : Board} (h : Progress roster b outcome now)
include h

theorem Progress.row (x : Row) (hx : x ∈ now.tasks) :
    x ∈ b.tasks ∨ ∃ r ∈ b.tasks, r.id = x.id ∧ Dispatched roster b outcome now r ∧
      x.status = (answerStatus (outcome r.id)).value := by
  have hid : x.id ∈ b.tasks.map (·.id) := h.ids ▸ List.mem_map_of_mem hx
  obtain ⟨r, hr, hrid⟩ := List.mem_map.mp hid
  rcases h.each r hr with hold | hdisp
  · obtain rfl := row_unique now r x hold hx hrid
    exact Or.inl hr
  · obtain ⟨y, hy, hyid, hstatus⟩ := hdisp.answered
    obtain rfl := row_unique now y x hy hx (hyid.trans hrid)
    exact Or.inr ⟨r, hr, hrid, hdisp, hstatus⟩

theorem Progress.waiting (x : Row) (hx : x ∈ now.tasks)
    (hs : x.status = "pending" ∨ x.status = "in_progress") : x ∈ b.tasks := by
  rcases h.row x hx with hold | ⟨r, -, -, hdisp, hstatus⟩
  · exact hold
  · obtain ⟨hpending, hrunning⟩ := hdisp.settles.settled
    rcases hs with hs | hs
    · exact absurd (hstatus.symm.trans hs) hpending
    · exact absurd (hstatus.symm.trans hs) hrunning

theorem Progress.finishes (x : Row) (hx : x ∈ now.tasks) (hdone : x.status = "done") :
    Finishes b outcome x.id := by
  rcases h.row x hx with hold | ⟨r, hr, hid, hdisp, hstatus⟩
  · exact .done x hold hdone
  · rw [← hid]
    have hanswer := (TaskStatus.value_inj _ .done).mp (hstatus.symm.trans hdone)
    exact .dispatched r hr hdisp.pending hanswer hdisp.blockers

theorem Progress.advance {now' : Board} {r : Row} {head : Head}
    (hnext : next roster now = some (r, head)) (hsettles : Settles (outcome r.id))
    (hmoves : Moves now now' r.id (answerStatus (outcome r.id)).value) :
    Progress roster b outcome now' := by
  obtain ⟨-, hhead, hmem, hpending, hblockers⟩ := next_spec roster hnext
  refine ⟨hmoves.ids.trans h.ids, fun z hz => ?_⟩
  by_cases hid : z.id = r.id
  · -- The task that moved.
    have hsame : z = r := row_unique b z r hz (h.waiting r hmem (Or.inl hpending)) hid
    rw [hsame]
    refine Or.inr ⟨hpending, by rw [hhead]; rfl, fun j hj => ?_, hsettles,
      hmoves.moved r hmem rfl⟩
    obtain ⟨d, hd, rfl, hdone⟩ := hblockers j hj
    exact h.finishes d hd hdone
  · rcases h.each z hz with hold | hdisp
    · exact Or.inl (hmoves.mem_of_ne z hold hid)
    · obtain ⟨w, hw, hwid, hstatus⟩ := hdisp.answered
      exact Or.inr { hdisp with
        answered := ⟨w, hmoves.mem_of_ne w hw (hwid ▸ hid), hwid, hstatus⟩ }

omit h in
theorem ready_or_waits (r : Row) (hr : r ∈ now.tasks) (hp : r.status = "pending") :
    r ∈ readyRows now none ∨
      ∃ j ∈ blockersOf r, ¬ ∃ d ∈ now.tasks, d.id = j ∧ d.status = "done" := by
  by_cases hall : ∀ j ∈ blockersOf r, ∃ d ∈ now.tasks, d.id = j ∧ d.status = "done"
  · exact Or.inl ((mem_readyRows now none r).mpr ⟨hr, (ready_iff now r hr).mpr ⟨hr, hp, hall⟩, rfl⟩)
  · exact Or.inr (by simpa only [not_forall, exists_prop] using hall)

/-- While a task that finishes is not DONE, something is ready. -/
theorem Progress.done_or_ready {i : String} (hfin : Finishes b outcome i) :
    (∃ x ∈ now.tasks, x.id = i ∧ x.status = "done") ∨ ∃ x, x ∈ readyRows now none := by
  induction hfin with
  | done r hr hdone =>
    rcases h.each r hr with hold | hdisp
    · exact Or.inl ⟨r, hold, rfl, hdone⟩
    · exact absurd (hdone.symm.trans hdisp.pending) (by decide)
  | dispatched r hr hpending hanswer _ ih =>
    rcases h.each r hr with hold | hdisp
    · rcases ready_or_waits r hold hpending with hready | ⟨j, hj, hnot⟩
      · exact Or.inr ⟨r, hready⟩
      · exact Or.inr ((ih j hj).resolve_left hnot)
    · obtain ⟨x, hx, hid, hstatus⟩ := hdisp.answered
      exact Or.inl ⟨x, hx, hid, by rw [hstatus, hanswer]; rfl⟩

theorem Progress.exists_next (hc : Completable roster b outcome) (x : Row) (hx : x ∈ now.tasks)
    (hp : x.status = "pending") : ∃ r head, next roster now = some (r, head) := by
  have hold := h.waiting x hx (Or.inl hp)
  obtain ⟨y, hy⟩ : ∃ y, y ∈ readyRows now none := by
    rcases ready_or_waits x hx hp with hready | ⟨j, hj, hnot⟩
    · exact ⟨x, hready⟩
    · exact (h.done_or_ready (hc.blockers x hold hp j hj)).resolve_left hnot
  obtain ⟨r, hr⟩ : ∃ r, (readyRows now none).head? = some r := by
    cases hrows : readyRows now none with
    | nil => simp [hrows] at hy
    | cons r rest => exact ⟨r, rfl⟩
  obtain ⟨hmem, hready, -⟩ := (mem_readyRows now none r).mp (List.mem_of_head? hr)
  have hpending := ((ready_iff now r hmem).mp hready).2.1
  obtain ⟨head, hhead⟩ := Option.isSome_iff_exists.mp
    (hc.routed r (h.waiting r hmem (Or.inl hpending)) hpending)
  exact ⟨r, head, by simp [next, hr, hhead]⟩

theorem Progress.completable
    (hall : ∀ x ∈ now.tasks, x.status ≠ "pending" ∧ x.status ≠ "in_progress") :
    Completable roster b outcome := by
  have hdisp : ∀ r ∈ b.tasks, r.status = "pending" → Dispatched roster b outcome now r :=
    fun r hr hp => (h.each r hr).resolve_left fun hold => (hall r hold).1 hp
  refine ⟨fun r hr hrunning => ?_, fun r hr hp => (hdisp r hr hp).routed,
    fun r hr hp => (hdisp r hr hp).blockers⟩
  rcases h.each r hr with hold | hd
  · exact (hall r hold).2 hrunning
  · exact absurd (hrunning.symm.trans hd.pending) (by decide)

end Progress

/-! ## The whole run -/

section Run

variable (cfg : Config) (roster : Roster) (conductor : Conductor) (clock : Nat → Times) (b : Board)

/-- The state after `n` polls. One that dispatches nothing leaves it as it is. -/
def polled : Nat → State
  | 0 => fresh b
  | n + 1 => (step cfg roster conductor false (clock n) (polled n)).2

/-- The answers to the dispatches are those of `outcome` to their tasks. -/
def Gives (outcome : String → Answer) (calls : List Dispatch) : Prop :=
  ∀ k d, calls[k]? = some d → conductor k d.head d.task = outcome d.task.id

variable (hcols : b.ColumnsOk) (hstat : b.StatusesOk)
  (hsettles : ∀ n head task, Settles (conductor n head task))

include hcols hstat hsettles

theorem polled_ok (n : Nat) : (polled cfg roster conductor clock b n).board.ColumnsOk ∧
    (polled cfg roster conductor clock b n).board.StatusesOk := by
  induction n with
  | zero => exact ⟨hcols, hstat⟩
  | succ n ih =>
    rw [polled]
    cases step_poll cfg roster conductor (clock n) _ ih.1 ih.2 hsettles with
    | quiet _ _ hsame =>
      rw [hsame]
      exact ih
    | dispatched r call _ _ _ _ _ hmoves =>
      constructor
      · intro x hx hp
        exact ih.1 x (pending_of_moved hmoves (hsettles _ _ _).settled.1 x hx hp).2 hp
      · intro x hx
        rcases hmoves.row x hx with ⟨-, hs, -⟩ | ⟨-, hold⟩
        · exact ⟨_, hs⟩
        · exact ih.2 x hold

theorem polled_poll (n : Nat) : Poll cfg roster conductor (clock n)
    (polled cfg roster conductor clock b n) (polled cfg roster conductor clock b (n + 1)) :=
  have hok := polled_ok cfg roster conductor clock b hcols hstat hsettles n
  step_poll cfg roster conductor (clock n) _ hok.1 hok.2 hsettles

theorem polled_progress (outcome : String → Answer)
    (hgives : ∀ n, Gives conductor outcome (polled cfg roster conductor clock b n).calls)
    (n : Nat) :
    Progress roster b outcome (polled cfg roster conductor clock b n).board := by
  induction n with
  | zero => exact ⟨rfl, fun r hr => Or.inl hr⟩
  | succ n ih =>
    cases polled_poll cfg roster conductor clock b hcols hstat hsettles n with
    | quiet _ _ hsame =>
      rw [hsame]
      exact ih
    | dispatched r call hnext hid _ hcalls _ hmoves =>
      have hlast := hgives (n + 1) (polled cfg roster conductor clock b n).calls.length call
        (by rw [hcalls]; simp)
      rw [hid] at hlast
      rw [hlast] at hmoves
      exact ih.advance hnext (hlast ▸ hsettles _ _ _) hmoves

/-! ## Each task is dispatched once -/

theorem polled_calls (n : Nat) :
    let s := polled cfg roster conductor clock b n
    (s.calls.map (·.task.id)).Nodup ∧ ∀ d ∈ s.calls, d.task.id ∉ pendingIds s.board := by
  induction n with
  | zero => simp [polled, fresh]
  | succ n ih =>
    obtain ⟨hnodup, hgone⟩ := ih
    cases polled_poll cfg roster conductor clock b hcols hstat hsettles n with
    | quiet _ _ hsame =>
      rw [hsame]
      exact ⟨hnodup, hgone⟩
    | dispatched r call _ hid _ hcalls hpending hmoves =>
      have hleft := fun i => mem_pendingIds_moved hmoves (hsettles _ _ _).settled.1 i
      have hnew : call.task.id ∉
          (polled cfg roster conductor clock b n).calls.map (·.task.id) := by
        intro hmem
        obtain ⟨d, hd, hsame⟩ := List.mem_map.mp hmem
        exact hgone d hd (by rw [hsame, hid]; exact hpending)
      simp only [hcalls, List.map_append, List.map_cons, List.map_nil]
      refine ⟨List.nodup_append.mpr ⟨hnodup, by simp, ?_⟩, fun d hd hmem => ?_⟩
      · rintro i hi j hj rfl
        exact hnew (List.mem_singleton.mp hj ▸ hi)
      · obtain ⟨hbefore, hne⟩ := (hleft d.task.id).mp hmem
        rcases List.mem_append.mp hd with hd | hd
        · exact hgone d hd hbefore
        · exact hne (by rw [List.mem_singleton.mp hd, hid])

theorem polled_calls_mono (m n : Nat) (h : m ≤ n) :
    (polled cfg roster conductor clock b m).calls <+: (polled cfg roster conductor clock b n).calls := by
  induction n, h using Nat.le_induction with
  | base => exact List.prefix_rfl
  | succ n _ ih =>
    cases polled_poll cfg roster conductor clock b hcols hstat hsettles n with
    | quiet _ _ hsame =>
      rw [hsame]
      exact ih
    | dispatched r call _ _ _ hcalls _ _ =>
      rw [hcalls]
      exact ih.trans (List.prefix_append _ _)

theorem dispatched_once {n n' k k' : Nat} {d d' : Dispatch}
    (hd : (polled cfg roster conductor clock b n).calls[k]? = some d)
    (hd' : (polled cfg roster conductor clock b n').calls[k']? = some d')
    (hid : d.task.id = d'.task.id) : k = k' ∧ d = d' := by
  have hmono := polled_calls_mono cfg roster conductor clock b hcols hstat hsettles
  have hnodup := (polled_calls cfg roster conductor clock b hcols hstat hsettles (max n n')).1
  obtain ⟨late, hlate⟩ := hmono n (max n n') (le_max_left _ _)
  obtain ⟨late', hlate'⟩ := hmono n' (max n n') (le_max_right _ _)
  rw [← List.getElem?_append_left (List.getElem?_eq_some_iff.mp hd).1, hlate] at hd
  rw [← List.getElem?_append_left (List.getElem?_eq_some_iff.mp hd').1, hlate'] at hd'
  have hsame : k = k' := by
    refine (List.getElem?_inj ?_ hnodup).mp ?_
    · simpa using (List.getElem?_eq_some_iff.mp hd).1
    · rw [List.getElem?_map, List.getElem?_map, hd, hd', Option.map_some, Option.map_some, hid]
  subst hsame
  exact ⟨rfl, Option.some.inj (hd.symm.trans hd')⟩

theorem exists_outcome : ∃ outcome : String → Answer,
    ∀ n, Gives conductor outcome (polled cfg roster conductor clock b n).calls := by
  have hone : ∀ i, ∃ answer : Answer, ∀ n k d,
      (polled cfg roster conductor clock b n).calls[k]? = some d → d.task.id = i →
        conductor k d.head d.task = answer := by
    intro i
    by_cases hsome : ∃ (n k : Nat) (d : Dispatch),
        (polled cfg roster conductor clock b n).calls[k]? = some d ∧ d.task.id = i
    · obtain ⟨n, k, d, hd, hid⟩ := hsome
      refine ⟨conductor k d.head d.task, fun n' k' d' hd' hid' => ?_⟩
      obtain ⟨rfl, rfl⟩ := dispatched_once cfg roster conductor clock b hcols hstat hsettles hd hd'
        (hid.trans hid'.symm)
      rfl
    · exact ⟨.ok ⟨.done, 0, none, none, none⟩, fun n k d hd hid => absurd ⟨n, k, d, hd, hid⟩ hsome⟩
  choose outcome houtcome using hone
  exact ⟨outcome, fun n k d hd => houtcome d.task.id n k d hd rfl⟩

/-! ## The end of the run -/

variable (onIdle : Nat → Board → Except Exn Unit × Board) (hidle : ∀ i b, onIdle i b = (.ok (), b))
  (hcfg : cfg.maxIterations = none ∧ cfg.waitForWork = false)
include hidle hcfg

/-- A run that returns has drained the board. -/
theorem run_drained (fuel n : Nat) (result : Except Exn Unit) (s' : State)
    (hrun : run cfg roster conductor (fun _ => false) clock onIdle fuel n
      (polled cfg roster conductor clock b n) = some (result, s')) :
    ∃ m, s' = polled cfg roster conductor clock b m ∧
      ∀ x ∈ s'.board.tasks, x.status ≠ "pending" ∧ x.status ≠ "in_progress" := by
  obtain ⟨hmax, hwait⟩ := hcfg
  induction fuel generalizing n with
  | zero => cases hrun
  | succ fuel ih =>
    cases polled_poll cfg roster conductor clock b hcols hstat hsettles n with
    | quiet _ hquiet hsame =>
      simp only [run, hmax, Option.any_none, Bool.false_eq_true, if_false, hquiet, hidle,
        drained_spec, hwait, Bool.not_false, Bool.and_true] at hrun
      split at hrun
      · next hall =>
        cases hrun
        refine ⟨n, rfl, fun x hx => ?_⟩
        simpa using List.all_eq_true.mp hall x hx
      · rw [← hsame] at hrun
        exact ih (n + 1) hrun
    | dispatched r call _ _ hstep _ _ _ =>
      simp only [run, hmax, Option.any_none, Bool.false_eq_true, if_false, hstep] at hrun
      exact ih (n + 1) hrun

theorem run_completes (outcome : String → Answer)
    (hgives : ∀ n, Gives conductor outcome (polled cfg roster conductor clock b n).calls)
    (hc : Completable roster b outcome) (n : Nat) :
    ∃ fuel s', run cfg roster conductor (fun _ => false) clock onIdle fuel n
      (polled cfg roster conductor clock b n) = some (.ok (), s') := by
  obtain ⟨hmax, hwait⟩ := hcfg
  have hprogress :=
    polled_progress cfg roster conductor clock b hcols hstat hsettles outcome hgives n
  -- Each dispatch takes a task out of the pending ones.
  induction hlen : (pendingIds (polled cfg roster conductor clock b n).board).length
    using Nat.strong_induction_on generalizing n with
  | _ k ih =>
    cases polled_poll cfg roster conductor clock b hcols hstat hsettles n with
    | quiet hnext hquiet _ =>
      have hdrained : ((polled cfg roster conductor clock b n).board.tasks.all fun r =>
          r.status != "pending" && r.status != "in_progress") = true := by
        rw [List.all_eq_true]
        intro x hx
        have hp : x.status ≠ "pending" := by
          intro hp
          obtain ⟨r, head, hsome⟩ := hprogress.exists_next hc x hx hp
          rw [hnext] at hsome
          cases hsome
        have hrunning : x.status ≠ "in_progress" := fun hs =>
          hc.idle x (hprogress.waiting x hx (Or.inr hs)) hs
        simp [hp, hrunning]
      refine ⟨1, polled cfg roster conductor clock b n, ?_⟩
      simp [run, hmax, hquiet, hidle, drained_spec, hdrained, hwait]
    | dispatched r call _ _ hstep _ hpending hmoves =>
      have hperm := pendingIds_perm hmoves (hsettles _ _ _).settled.1 hpending
      have hfewer := hperm.length_eq
      rw [List.length_cons, hlen] at hfewer
      have hnext :=
        polled_progress cfg roster conductor clock b hcols hstat hsettles outcome hgives (n + 1)
      obtain ⟨fuel, s', hrun⟩ := ih _ (by omega) (n + 1) hnext rfl
      exact ⟨fuel + 1, s', by simp [run, hmax, hstep, hrun]⟩

end Run

/-- **The serial loop ends exactly when every pending task can finish.** The answers of a run are
one answer for each task, and the run returns if and only if no task is in progress and every
pending one has a head and waits only for tasks that finish. -/
theorem run_ends_iff (b : Board) (hcols : b.ColumnsOk) (hstat : b.StatusesOk) (roster : Roster)
    (cfg : Config) (hcfg : cfg.maxIterations = none ∧ cfg.waitForWork = false)
    (conductor : Conductor) (hsettles : ∀ n head task, Settles (conductor n head task))
    (clock : Nat → Times) (onIdle : Nat → Board → Except Exn Unit × Board)
    (hidle : ∀ i b, onIdle i b = (.ok (), b)) :
    (∃ outcome : String → Answer, ∀ n,
      Gives conductor outcome (polled cfg roster conductor clock b n).calls) ∧
      ∀ outcome : String → Answer,
        (∀ n, Gives conductor outcome (polled cfg roster conductor clock b n).calls) →
        ((∃ fuel result s', run cfg roster conductor (fun _ => false) clock onIdle fuel 0 (fresh b) =
            some (result, s')) ↔ Completable roster b outcome) := by
  refine ⟨exists_outcome cfg roster conductor clock b hcols hstat hsettles, fun outcome hgives => ?_⟩
  constructor
  · rintro ⟨fuel, result, s', hrun⟩
    obtain ⟨m, rfl, hall⟩ :=
      run_drained cfg roster conductor clock b hcols hstat hsettles onIdle hidle
      hcfg fuel 0 result s' hrun
    exact (polled_progress cfg roster conductor clock b hcols hstat hsettles outcome hgives m).completable hall
  · intro hc
    obtain ⟨fuel, s', hrun⟩ :=
      run_completes cfg roster conductor clock b hcols hstat hsettles onIdle
      hidle hcfg outcome hgives hc 0
    exact ⟨fuel, .ok (), s', hrun⟩

/-! ## A board that ends, and one that does not -/

def serial : Config := ⟨"supervisor", none, none, 10, false⟩

/-- The conductor of the stub: every answer is DONE. -/
def stub : Answer := .ok ⟨.done, 0, none, none, none⟩

theorem chain_ends :
    ∃ fuel result s', run serial soloRoster (fun _ _ _ => stub) (fun _ => false)
      (fun _ => ⟨0, 0, 0, 0⟩) (fun _ b => (.ok (), b)) fuel 0 (fresh chain) =
        some (result, s') := by
  have hblocker : Finishes chain (fun _ => stub) "a" :=
    .dispatched (Task.toRow (Task.new "a" 1)) (List.mem_pair.mpr (Or.inr rfl)) rfl rfl
      fun j hj => absurd hj List.not_mem_nil
  have hc : Completable soloRoster chain fun _ => stub := by
    refine ⟨by decide +kernel, chain_drainable.routed, fun r hr _ j hj => ?_⟩
    rcases List.mem_pair.mp hr with rfl | rfl
    · obtain rfl : j = "a" := List.mem_singleton.mp hj
      exact hblocker
    · exact absurd hj List.not_mem_nil
  exact ((run_ends_iff chain chain_drainable.columns chain_drainable.statusesOk soloRoster serial
    ⟨rfl, rfl⟩ (fun _ _ _ => stub) (fun _ _ _ => Or.inl rfl) (fun _ => ⟨0, 0, 0, 0⟩)
    (fun _ b => (.ok (), b)) fun _ _ => rfl).2 (fun _ => stub) fun _ _ _ _ => rfl).mpr hc

/-- A task that waits for a failed one. -/
def deadEdge : Board where
  tasks := [Task.toRow { Task.new "a" 0 with status := .failed },
    Task.toRow { Task.new "b" 1 with blockedBy := .ofStrs ["a"] }]
  timeline := []
  primaryKey := by decide

theorem deadEdge_typed : deadEdge.StatusesOk ∧ ∀ r ∈ deadEdge.tasks, HoldsIds r.blockedBy := by
  constructor
  · intro r hr
    rcases List.mem_pair.mp hr with rfl | rfl
    · exact ⟨.failed, rfl⟩
    · exact ⟨.pending, rfl⟩
  · intro r hr
    rcases List.mem_pair.mp hr with rfl | rfl
    · exact ⟨[], rfl⟩
    · exact ⟨["a"], rfl⟩

theorem run_stuck (cfg : Config) (roster : Roster) (conductor : Conductor) (clock : Nat → Times)
    (hmax : cfg.maxIterations = none) (s : State) (hcols : s.board.ColumnsOk)
    (hstat : s.board.StatusesOk) (hnext : next roster s.board = none)
    (hleft : ∃ r ∈ s.board.tasks, r.status = "pending" ∨ r.status = "in_progress") (fuel i : Nat) :
    run cfg roster conductor (fun _ => false) clock (fun _ b => (.ok (), b)) fuel i s = none := by
  have hdrained : (s.board.tasks.all fun r => r.status != "pending" && r.status != "in_progress") =
      false := by
    obtain ⟨r, hr, hs⟩ := hleft
    refine List.all_eq_false.mpr ⟨r, hr, ?_⟩
    rcases hs with hs | hs <;> simp [hs]
  induction fuel generalizing i with
  | zero => rfl
  | succ fuel ih =>
    simp [run, hmax, step_quiet cfg roster conductor (clock i) s hcols hstat hnext, drained_spec,
      hdrained, ih]

theorem deadEdge_never_ends :
    ¬ ∃ fuel result s', run serial soloRoster (fun _ _ _ => stub) (fun _ => false)
      (fun _ => ⟨0, 0, 0, 0⟩) (fun _ b => (.ok (), b)) fuel 0 (fresh deadEdge) =
        some (result, s') := by
  rintro ⟨fuel, result, s', hrun⟩
  have hnext : next soloRoster deadEdge = none := by decide +kernel
  have hleft : ∃ r ∈ deadEdge.tasks, r.status = "pending" ∨ r.status = "in_progress" := by
    decide +kernel
  have hstuck := run_stuck serial soloRoster (fun _ _ _ => stub) (fun _ => ⟨0, 0, 0, 0⟩) rfl
    (fresh deadEdge) (fun r hr _ => deadEdge_typed.2 r hr) deadEdge_typed.1 hnext hleft fuel 0
  rw [hrun] at hstuck
  cases hstuck

end Swarm.Supervisor
