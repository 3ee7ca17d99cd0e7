import Swarm.Bus.Readable
import Swarm.Kanban.Update
import Swarm.Lib.Newest

/-!
# Updates after the end of a handoff

An inbox reports the newest update of a task, and the kanban row has the last one to arrive. Neither
looks at what was there before.
-/

namespace Swarm.Bus

open Kanban Swarm.Lib

variable {sp : Spelling}

/-! ## What an inbox reports -/

/-- The messages that are delegations. -/
def handoffs (sp : Spelling) (msgs : List Message) : List Delegation :=
  msgs.filterMap fun m => (fromMessage sp m).toOption

/-- The delegations of one task. -/
def about (taskRef : String) (ds : List Delegation) : List Delegation :=
  ds.filter (·.taskRef = taskRef)

theorem delegationsLoop_spec {msgs : List Message} (hsound : ∀ m ∈ msgs, Sound m) :
    delegationsLoop sp none msgs = .ok (handoffs sp msgs) := by
  induction msgs with
  | nil => rfl
  | cons m rest ih =>
    obtain ⟨hm, hrest⟩ := List.forall_mem_cons.mp hsound
    simp only [delegationsLoop, handoffs, List.filterMap_cons, ih hrest]
    by_cases htask : m.kind ∈ TASK_MSG_TYPES
    · obtain ⟨d, hd⟩ := (fromMessage_ok_iff sp htask).mpr (hm htask)
      simp [htask, hd, Except.map, Except.toOption]
    · have herror : (fromMessage sp m).toOption = none := by
        cases hs : DelegationStatus.ofValue m.kind with
        | none => simp [fromMessage, hs, Except.toOption]
        | some s => exact absurd ((mem_task_iff m.kind).mpr ⟨s, hs⟩) htask
      simp [htask, herror]

theorem foldl_latestStep (taskRef : String) (ds : List Delegation) (latest : Option Delegation) :
    ds.foldl (latestStep taskRef) latest = (about taskRef ds).foldl (newerOf (·.ts)) latest := by
  induction ds generalizing latest with
  | nil => rfl
  | cons d rest ih =>
    simp only [List.foldl_cons, ih, about, List.filter_cons]
    by_cases htask : d.taskRef = taskRef
    · simp [htask, latestStep, newerOf]
    · simp [htask, latestStep]

theorem statusOf_spec {inboxes : Inboxes} {r : String} (hsound : ∀ m ∈ recv inboxes r, Sound m)
    (taskRef : String) :
    statusOf sp inboxes r taskRef =
      .ok (newest (·.ts) (about taskRef (handoffs sp (recv inboxes r)))) := by
  rw [statusOf, delegations, delegationsLoop_spec hsound]
  exact congrArg Except.ok (foldl_latestStep taskRef _ none)

/-! ## The calls -/

/-- `ids` has the ids of the messages so far, and `ended` the tasks with an accepted `task_done` or
`task_failed`. -/
structure Handoffs where
  state : State
  ids : List String
  ended : List String

structure Update where
  args : UpdateArgs
  stamp : Stamp

/-- The next call, with an id that is new, and a status that is accepted. -/
def next (bus : TaskBus) (u : Update) (h : Handoffs) : Option Handoffs :=
  if u.stamp.id ∈ h.ids then none
  else
    (returned (updateStatus bus u.args u.stamp h.state)).map fun s =>
      { state := s
        ids := u.stamp.id :: h.ids
        ended := if u.args.status.isTerminal then u.args.taskRef :: h.ended else h.ended }

def begun (b : Board) : Handoffs := ⟨start b, [], []⟩

/-- `task_claimed`, `task_progress` or `task_blocked`. -/
def Continues : DelegationStatus → Prop
  | .claimed | .progress | .blocked => True
  | _ => False

/-- The task is closed on the board. -/
def Ended (row : Row) : Prop := row.status = TaskStatus.done.value ∨
    row.status = TaskStatus.failed.value

/-- An update that continues a task after its end makes no inbox report a status that is not
terminal, and leaves the row in DONE or FAILED if it is there. -/
def StaysEnded (bus : TaskBus) (p : Step Handoffs Update) : Prop :=
  Continues p.label.args.status → p.label.args.taskRef ∈ p.before.ended →
    (∀ r d, statusOf bus.spelling p.after.state.inboxes r p.label.args.taskRef = .ok (some d) →
      d.status.isTerminal ∨
        statusOf bus.spelling p.before.state.inboxes r p.label.args.taskRef = .ok (some d)) ∧
    ∀ row, p.before.state.board.select p.label.args.taskRef = some row → Ended row →
      ∃ row', p.after.state.board.select p.label.args.taskRef = some row' ∧ Ended row'

/-! ## The condition -/

/-- The inboxes that a message to `recipient` goes to. -/
def Addressed (inboxes : Inboxes) (recipient r : String) : Prop :=
  if recipient = BROADCAST then (inboxes r).isSome = true else r = recipient

/-- The messages that the next one does not push out. -/
def remaining {α : Type*} (maxMessages : Int) (msgs : List α) : List α :=
  msgs.drop (if maxMessages ≤ 0 then 0 else (msgs.length + 1 - maxMessages).toNat)

/-- The inbox keeps an update of the task that is newer than this one, and the newest it keeps is
terminal or was the newest before. -/
def Superseded (bus : TaskBus) (u : Update) (msgs : List Message) : Prop :=
  let ofTask := fun ms => about u.args.taskRef (handoffs bus.spelling ms)
  ∃ d, IsNewest (·.ts) (ofTask (remaining bus.maxMessages msgs)) d ∧ u.stamp.ts < d.ts ∧
    (d.status.isTerminal ∨ IsNewest (·.ts) (ofTask msgs) d)

/-- An update that continues an ended task is old news in every inbox it goes to, and no row is
there to be moved. -/
def Harmless (bus : TaskBus) (h : Handoffs) (u : Update) : Prop :=
  Continues u.args.status → u.args.taskRef ∈ h.ended →
    (0 ≤ bus.maxMessages → ∀ r, Addressed h.state.inboxes u.args.recipient r →
      Superseded bus u (recv h.state.inboxes r)) ∧
    (bus.mirrors → ∀ row, h.state.board.select u.args.taskRef = some row → ¬ Ended row)

/-! ## One update -/

theorem bounded_snoc {α : Type*} {maxMessages : Int} (hmax : 0 ≤ maxMessages) (msgs : List α)
    (m : α) :
    Messaging.bounded maxMessages (msgs ++ [m]) = remaining maxMessages msgs ++ [m] := by
  unfold Messaging.bounded Messaging.sliceFrom remaining
  have hlen : (msgs ++ [m]).length = msgs.length + 1 := by simp
  rw [hlen]
  by_cases hzero : maxMessages ≤ 0
  · obtain rfl : maxMessages = 0 := by omega
    simp
  rw [if_neg hzero]
  split
  · rw [if_pos (by omega)]
    have hdrop : (max 0 (((msgs.length + 1 : ℕ) : Int) + -maxMessages)).toNat =
        (msgs.length + 1 - maxMessages).toNat := by omega
    rw [hdrop, List.drop_append_of_le_length (by omega)]
  · have hnone : (msgs.length + 1 - maxMessages).toNat = 0 := by omega
    rw [hnone, List.drop_zero]

theorem recv_deliver {maxMessages : Int} (hmax : 0 ≤ maxMessages) {inboxes : Inboxes}
    {msg : Message} {r : String} (haddressed : Addressed inboxes msg.recipient r) :
    recv (deliver maxMessages msg inboxes) r = remaining maxMessages (recv inboxes r) ++ [msg] := by
  unfold Addressed at haddressed
  unfold recv deliver
  split at haddressed
  · next hall =>
    obtain ⟨msgs, hmsgs⟩ := Option.isSome_iff_exists.mp haddressed
    rw [if_pos hall]
    simp [hmsgs, bounded_snoc hmax]
  · next hone =>
    subst haddressed
    rw [if_neg hone, Function.update_self]
    exact bounded_snoc hmax _ msg

theorem recv_deliver_other {maxMessages : Int} {inboxes : Inboxes} {msg : Message} {r : String}
    (hother : ¬ Addressed inboxes msg.recipient r) :
    recv (deliver maxMessages msg inboxes) r = recv inboxes r := by
  unfold Addressed at hother
  unfold recv deliver
  split at hother
  · next hall =>
    rw [if_pos hall]
    simp [Option.not_isSome_iff_eq_none.mp hother]
  · next hone => rw [if_neg hone, Function.update_of_ne hother]

theorem updateStatus_spec {bus : TaskBus} {a : UpdateArgs} {t : Stamp} {s s' : State}
    (h : returned (updateStatus bus a t s) = some s') :
    a.taskRef ≠ "" ∧ s' = ⟨deliver bus.maxMessages ((a.delegation t).toMessage bus.spelling) s.inboxes,
      mirrorKanban bus (a.delegation t) t.kanbanTs s.board⟩ := by
  have htask : a.taskRef ≠ "" := step_taskRef (l := .update a t) h
  refine ⟨htask, ?_⟩
  have hsent := sendDelegation_eq bus (d := a.delegation t) htask rfl rfl rfl s
  unfold updateStatus at h
  rw [if_neg htask] at h
  split at h
  · cases h
  · rw [hsent] at h
    exact (Option.some.inj h).symm

theorem next_spec {bus : TaskBus} {u : Update} {h h' : Handoffs} (hnext : next bus u h = some h') :
    u.stamp.id ∉ h.ids ∧ u.args.taskRef ≠ "" ∧
      h'.state = ⟨deliver bus.maxMessages ((u.args.delegation u.stamp).toMessage bus.spelling) h.state.inboxes,
        mirrorKanban bus (u.args.delegation u.stamp) u.stamp.kanbanTs h.state.board⟩ ∧
      h'.ids = u.stamp.id :: h.ids := by
  unfold next at hnext
  split at hnext
  · cases hnext
  · next hnew =>
    obtain ⟨s, hs, rfl⟩ := Option.map_eq_some_iff.mp hnext
    obtain ⟨htask, rfl⟩ := updateStatus_spec hs
    exact ⟨hnew, htask, rfl, rfl⟩

theorem mem_recv_deliver {maxMessages : Int} {inboxes : Inboxes} {msg m : Message} {r : String}
    (hm : m ∈ recv (deliver maxMessages msg inboxes) r) : m = msg ∨ m ∈ recv inboxes r := by
  unfold recv at hm ⊢
  cases hmsgs : deliver maxMessages msg inboxes r with
  | none => simp [hmsgs] at hm
  | some msgs =>
    rw [hmsgs] at hm
    rcases mem_deliver hmsgs hm with rfl | ⟨old, hold, hm⟩
    · exact .inl rfl
    · exact .inr (by simpa [hold] using hm)

/-- Every inbox can be read, and the ids in it are known. -/
structure Inv (bus : TaskBus) (h : Handoffs) : Prop where
  kept : Kept bus h.state
  sound : ∀ r, ∀ m ∈ recv h.state.inboxes r, Sound m
  known : ∀ r, ∀ m ∈ recv h.state.inboxes r, m.id ∈ h.ids

theorem next_inv {bus : TaskBus} {u : Update} {h h' : Handoffs} (hinv : Inv bus h)
    (hnext : next bus u h = some h') : Inv bus h' := by
  obtain ⟨-, htask, hstate, hids⟩ := next_spec hnext
  refine ⟨fun hmax => ?_, fun r m hm => ?_, fun r m hm => ?_⟩
  · rw [hstate]
    exact deliver_negative hmax (hinv.kept hmax)
  · rw [hstate] at hm
    rcases mem_recv_deliver hm with rfl | hm
    · exact fun _ => toMessage_complete (u.args.delegation u.stamp) htask
    · exact hinv.sound r m hm
  · rw [hstate] at hm
    rw [hids]
    rcases mem_recv_deliver hm with rfl | hm
    · exact List.mem_cons_self
    · exact List.mem_cons_of_mem _ (hinv.known r m hm)

theorem begun_inv (bus : TaskBus) (b : Board) : Inv bus (begun b) :=
  ⟨start_kept bus b, fun _ _ hm => absurd hm (List.not_mem_nil), fun _ _ hm => absurd hm (List.not_mem_nil)⟩

/-! ## The two views -/

theorem newerOf_stays_iff {kept old : List Delegation} {d : Delegation}
    (hopen : ¬ d.status.isTerminal) (hnew : d ∉ old) :
    (∀ e, newerOf (·.ts) (newest (·.ts) kept) d = some e →
      e.status.isTerminal ∨ newest (·.ts) old = some e) ↔
      ∃ e, IsNewest (·.ts) kept e ∧ d.ts < e.ts ∧
        (e.status.isTerminal ∨ IsNewest (·.ts) old e) := by
  -- What the newest is after `d`, which is open and was not there before.
  have hfails : ¬ (d.status.isTerminal ∨ newest (·.ts) old = some d) := by
    rintro (hterm | hold)
    · exact hopen hterm
    · exact hnew (newest_eq_some_iff.mp hold).mem
  simp only [← newest_eq_some_iff]
  unfold newerOf
  cases newest (·.ts) kept with
  | none => simpa using hfails
  | some e =>
    by_cases hle : e.ts ≤ d.ts
    · simp [hle, not_lt.mpr hle] at hfails ⊢
      exact hfails
    · simp [hle, not_le.mp hle]

theorem fromMessage_id {m : Message} {d : Delegation} (h : fromMessage sp m = .ok d) :
    d.id = m.id := by
  unfold fromMessage at h
  split at h
  · cases h
  · simp only at h
    split at h
    · cases h
    · split at h
      · cases h
      · obtain rfl := Except.ok.inj h
        rfl

theorem mem_handoffs {msgs : List Message} {d : Delegation} (h : d ∈ handoffs sp msgs) :
    ∃ m ∈ msgs, d.id = m.id := by
  obtain ⟨m, hm, hread⟩ := List.mem_filterMap.mp h
  refine ⟨m, hm, ?_⟩
  cases hd : fromMessage sp m with
  | error e => simp [hd, Except.toOption] at hread
  | ok d' =>
    obtain rfl : d' = d := by simpa [hd, Except.toOption] using hread
    exact fromMessage_id hd

theorem about_snoc (msgs : List Message) {m : Message} {d : Delegation} {taskRef : String}
    (h : fromMessage sp m = .ok d) (htask : d.taskRef = taskRef) :
    about taskRef (handoffs sp (msgs ++ [m])) = about taskRef (handoffs sp msgs) ++ [d] := by
  simp [handoffs, about, h, htask, Except.toOption]

theorem inbox_stays_iff {bus : TaskBus} {u : Update} {h h' : Handoffs} {r : String}
    (hinv : Inv bus h) (hmax : 0 ≤ bus.maxMessages) (hopen : ¬ u.args.status.isTerminal)
    (hnext : next bus u h = some h') (haddressed : Addressed h.state.inboxes u.args.recipient r) :
    (∀ d, statusOf bus.spelling h'.state.inboxes r u.args.taskRef = .ok (some d) →
      d.status.isTerminal ∨
      statusOf bus.spelling h.state.inboxes r u.args.taskRef = .ok (some d)) ↔
      Superseded bus u (recv h.state.inboxes r) := by
  obtain ⟨hfresh, htask, hstate, -⟩ := next_spec hnext
  let d := u.args.delegation u.stamp
  have hread : fromMessage bus.spelling (d.toMessage bus.spelling) = .ok d :=
    fromMessage_toMessage d htask rfl
  have htaskRef : d.taskRef = u.args.taskRef := rfl
  have hrecv : recv h'.state.inboxes r =
      remaining bus.maxMessages (recv h.state.inboxes r) ++ [d.toMessage bus.spelling] := by
    rw [hstate]
    exact recv_deliver hmax haddressed
  have hafter : newest (·.ts) (about u.args.taskRef (handoffs bus.spelling (recv h'.state.inboxes r))) =
      newerOf (·.ts) (newest (·.ts) (about u.args.taskRef (handoffs bus.spelling
        (remaining bus.maxMessages (recv h.state.inboxes r))))) d := by
    have hsnoc := about_snoc (remaining bus.maxMessages (recv h.state.inboxes r)) hread htaskRef
    rw [hrecv, hsnoc]
    exact newest_snoc _ _ d
  have hnew : d ∉ about u.args.taskRef (handoffs bus.spelling (recv h.state.inboxes r)) := by
    intro hd
    obtain ⟨m, hm, hid⟩ := mem_handoffs (List.mem_of_mem_filter hd)
    have hknown := hinv.known r m hm
    rw [← hid] at hknown
    exact hfresh hknown
  rw [statusOf_spec ((next_inv hinv hnext).sound r), statusOf_spec (hinv.sound r), hafter]
  simp only [Except.ok.injEq]
  exact newerOf_stays_iff hopen hnew

theorem mirrorKanban_eq {bus : TaskBus} {d : Delegation} {s : TaskStatus}
    (hmirrors : bus.mirrors = true) (hs : KANBAN_STATUS d.status = some s) (ts : ℚ) (b : Board) :
    ∃ prPath : Option (Option String), mirrorKanban bus d ts b =
      (Kanban.update b d.taskRef ([.status s.value] ++ (prPath.map Field.prPath).toList)
        (some ("bus:" ++ d.status.value ++ ":" ++ d.sender)) ts).2 := by
  unfold mirrorKanban
  rw [hmirrors, hs]
  split
  · next hnot => simp at hnot
  · simp only
    split
    · exact ⟨none, rfl⟩
    · exact ⟨some (some _), rfl⟩

theorem mirrorKanban_spec {bus : TaskBus} {d : Delegation} {s : TaskStatus} {t : ℚ} {b : Board}
    {row : Row} (hmirrors : bus.mirrors = true) (hs : KANBAN_STATUS d.status = some s)
    (hrow : b.select d.taskRef = some row) :
    ∃ row', (mirrorKanban bus d t b).select d.taskRef = some row' ∧ row'.status = s.value := by
  obtain ⟨prPath, heq⟩ := mirrorKanban_eq hmirrors hs t b
  have hstatus : given Field.status? ([.status s.value] ++ (prPath.map Field.prPath).toList) = some s.value := by
    cases prPath <;> rfl
  rw [heq, update_spec _ _ _ _ _ row s hrow (by cases prPath <;> rfl) (by cases prPath <;> rfl) hstatus]
  refine ⟨_, select_modify_self b d.taskRef _ (setAll_id _) row hrow, ?_⟩
  rw [setAll_status, hstatus]
  rfl

theorem continues_status {s : DelegationStatus} (h : Continues s) :
    ¬ s.isTerminal ∧ ∃ row, KANBAN_STATUS s = some row ∧ row ≠ .done ∧ row ≠ .failed := by
  cases s with
  | claimed | progress => exact ⟨by decide, .inProgress, rfl, by decide, by decide⟩
  | blocked => exact ⟨by decide, .needsReview, rfl, by decide, by decide⟩
  | delegated | done | failed => exact h.elim

theorem inboxes_stay_iff {bus : TaskBus} {u : Update} {h h' : Handoffs} (hinv : Inv bus h)
    (hopen : ¬ u.args.status.isTerminal) (hnext : next bus u h = some h') :
    (∀ r d, statusOf bus.spelling h'.state.inboxes r u.args.taskRef = .ok (some d) →
      d.status.isTerminal ∨
      statusOf bus.spelling h.state.inboxes r u.args.taskRef = .ok (some d)) ↔
      (0 ≤ bus.maxMessages → ∀ r, Addressed h.state.inboxes u.args.recipient r →
        Superseded bus u (recv h.state.inboxes r)) := by
  obtain ⟨-, -, hstate, -⟩ := next_spec hnext
  constructor
  · exact fun hstays hmax r haddressed => (inbox_stays_iff hinv hmax hopen hnext haddressed).mp (hstays r)
  · intro hold r
    by_cases hmax : 0 ≤ bus.maxMessages
    · by_cases haddressed : Addressed h.state.inboxes u.args.recipient r
      · exact (inbox_stays_iff hinv hmax hopen hnext haddressed).mpr (hold hmax r haddressed)
      · intro d hd
        rw [hstate, statusOf, delegations, recv_deliver_other haddressed] at hd
        exact .inr hd
    · -- Nothing is kept.
      intro d hd
      have hnil : recv h'.state.inboxes r = [] := by
        unfold recv
        cases hmsgs : h'.state.inboxes r with
        | none => rfl
        | some msgs => exact (next_inv hinv hnext).kept (not_le.mp hmax) r msgs hmsgs
      rw [statusOf, delegations, hnil] at hd
      cases hd

theorem row_stays_iff {bus : TaskBus} {u : Update} {h h' : Handoffs}
    (hcontinues : Continues u.args.status) (hnext : next bus u h = some h') :
    (∀ row, h.state.board.select u.args.taskRef = some row → Ended row →
      ∃ row', h'.state.board.select u.args.taskRef = some row' ∧ Ended row') ↔
      (bus.mirrors → ∀ row, h.state.board.select u.args.taskRef = some row → ¬ Ended row) := by
  obtain ⟨-, -, hstate, -⟩ := next_spec hnext
  rw [hstate]
  cases hmirrors : bus.mirrors with
  | false =>
    refine iff_of_true (fun row hrow hended => ⟨row, ?_, hended⟩) (by simp)
    simpa [mirrorKanban, hmirrors] using hrow
  | true =>
    constructor
    · intro hstays _ row hrow hended
      obtain ⟨-, s, hs, hdone, hfailed⟩ := continues_status hcontinues
      obtain ⟨row', hrow', hended'⟩ := hstays row hrow hended
      obtain ⟨moved, hmoved, hstatus⟩ := mirrorKanban_spec (d := u.args.delegation u.stamp)
        (t := u.stamp.kanbanTs) hmirrors hs hrow
      obtain rfl : moved = row' := Option.some.inj (hmoved.symm.trans hrow')
      rw [Ended, hstatus, TaskStatus.value_inj, TaskStatus.value_inj] at hended'
      exact hended'.elim hdone hfailed
    · exact fun hnone row hrow hended => absurd hended (hnone rfl row hrow)

theorem staysEnded_iff {bus : TaskBus} {u : Update} {h h' : Handoffs} (hinv : Inv bus h)
    (hnext : next bus u h = some h') : StaysEnded bus ⟨h, u, h'⟩ ↔ Harmless bus h u :=
  imp_congr_right fun hcontinues => imp_congr_right fun _ =>
    and_congr (inboxes_stay_iff hinv (continues_status hcontinues).1 hnext) (row_stays_iff hcontinues hnext)

/-- **When updates leave an ended handoff ended.** -/
theorem staysEnded_along_iff (bus : TaskBus) (b : Board) (updates : List Update) :
    (∀ taken ∈ path (next bus) (begun b) updates, StaysEnded bus taken) ↔
      ∀ taken ∈ path (next bus) (begun b) updates, Harmless bus taken.before taken.label :=
  path_forall_congr (fun _ _ _ => next_inv) (fun _ _ _ => staysEnded_iff) (begun b) updates
    (begun_inv bus b)

/-! ## A late report of progress -/

def mirroredBus : TaskBus := { defaultBus with mirrors := true }

def report (status : DelegationStatus) (id : String) (ts : ℚ) : Update :=
  ⟨⟨"codex", "dispatch", "t1", status, "", none, none, none, []⟩, ⟨id, ts, ts⟩⟩

def oneTask : Board := (submit Board.empty (Task.new "t1" 0) 0).2

/-- Done, and then a late report of progress. -/
def finishedThenProgress : List Update := [report .done "m1" 1, report .progress "m2" 2]

theorem progress_reopens :
    ¬ ∀ taken ∈ path (next mirroredBus) (begun oneTask) finishedThenProgress,
      StaysEnded mirroredBus taken := by
  let h₁ := (next mirroredBus (report .done "m1" 1) (begun oneTask)).get (by decide +kernel)
  let h₂ := (next mirroredBus (report .progress "m2" 2) h₁).get (by decide +kernel)
  have hfirst : next mirroredBus (report .done "m1" 1) (begun oneTask) = some h₁ := by simp [h₁]
  have hsecond : next mirroredBus (report .progress "m2" 2) h₁ = some h₂ := by simp [h₂]
  have hbefore : (h₁.state.board.select "t1").map (·.status) = some "done" := by decide +kernel
  have hafter : (h₂.state.board.select "t1").map (·.status) = some "in_progress" := by
    decide +kernel
  have hended : "t1" ∈ h₁.ended := by decide +kernel
  intro h
  obtain ⟨-, hlast⟩ := (forall_path_cons hfirst).mp h
  obtain ⟨-, hstays⟩ := ((forall_path_cons hsecond).mp hlast).1 trivial hended
  obtain ⟨row, hrow, hdone⟩ := Option.map_eq_some_iff.mp hbefore
  obtain ⟨row', hrow', hended'⟩ := hstays row hrow (.inl hdone)
  obtain ⟨moved, hmoved, hstatus⟩ := Option.map_eq_some_iff.mp hafter
  obtain rfl : moved = row' := Option.some.inj (hmoved.symm.trans hrow')
  rw [Ended, hstatus] at hended'
  exact absurd hended' (by decide)

end Swarm.Bus
