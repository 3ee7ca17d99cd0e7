import Swarm.Bus.Code

/-!
# Which messages an inbox can be read with

`send` takes any body with any verb. A read makes a delegation of every message with a task verb,
and raises where one cannot be made.
-/

namespace Swarm.Bus

open Kanban Swarm.Lib

variable {sp : Spelling}

/-! ## One message -/

theorem mem_task_iff (kind : String) :
    kind ∈ TASK_MSG_TYPES ↔ ∃ s, DelegationStatus.ofValue kind = some s := by
  constructor
  · intro h
    obtain ⟨s, -, rfl⟩ := List.mem_map.mp h
    exact ⟨s, DelegationStatus.ofValue_value s⟩
  · rintro ⟨s, h⟩
    rw [← DelegationStatus.value_ofValue h]
    exact List.mem_map_of_mem (by cases s <;> decide)

/-- A task, and a payload that `dict` takes. -/
def Complete (body : Dict) : Prop :=
  (Json.get body "task_ref").truthy = true ∧
    ∃ payload, ((Json.get body "payload").or (.obj [])).asDict = .ok payload

/-- A message that a read passes over, or makes a delegation of. -/
def Sound (msg : Message) : Prop := msg.kind ∈ TASK_MSG_TYPES → Complete msg.body

variable (sp) in
theorem fromMessage_ok_iff {msg : Message} (hkind : msg.kind ∈ TASK_MSG_TYPES) :
    (∃ d, fromMessage sp msg = .ok d) ↔ Complete msg.body := by
  obtain ⟨s, hs⟩ := (mem_task_iff msg.kind).mp hkind
  unfold fromMessage Complete
  rw [hs]
  cases htask : (Json.get msg.body "task_ref").truthy with
  | false => simp [htask]
  | true =>
    cases hpayload : ((Json.get msg.body "payload").or (.obj [])).asDict with
    | error e => simp [htask]
    | ok payload => simp [htask]

variable (sp) in
theorem delegationsLoop_ok_iff (status : Option DelegationStatus) (msgs : List Message) :
    (∃ out, delegationsLoop sp status msgs = .ok out) ↔ ∀ m ∈ msgs, Sound m := by
  induction msgs with
  | nil => simp [delegationsLoop]
  | cons m rest ih =>
    rw [List.forall_mem_cons, ← ih]
    simp only [delegationsLoop]
    split
    · next hnot => simp [Sound, hnot]
    · next htask =>
      have hok := fromMessage_ok_iff sp (not_not.mp htask)
      cases hread : fromMessage sp m with
      | error e =>
        have hbad : ¬ Complete m.body := fun h => by simpa [hread] using hok.mpr h
        simp [Sound, not_not.mp htask, hbad]
      | ok d =>
        have hgood : Complete m.body := hok.mp ⟨d, hread⟩
        cases hrest : delegationsLoop sp status rest with
        | error e => simp [Except.map]
        | ok out => simp [Except.map, Sound, hgood]

/-! ## What a call delivers -/

section Bounded

variable {α : Type*} {maxMessages : Int}

theorem mem_of_mem_bounded {msgs : List α} {m : α} (h : m ∈ Messaging.bounded maxMessages msgs) :
    m ∈ msgs := by
  unfold Messaging.bounded Messaging.sliceFrom at h
  split at h
  · exact List.mem_of_mem_drop h
  · exact h

theorem mem_bounded_snoc (hmax : 0 ≤ maxMessages) (msgs : List α) (m : α) :
    m ∈ Messaging.bounded maxMessages (msgs ++ [m]) := by
  unfold Messaging.bounded Messaging.sliceFrom
  split
  · next hlong =>
    rw [List.length_append, List.length_singleton] at hlong
    have hdrop : ∀ n ≤ msgs.length, m ∈ (msgs ++ [m]).drop n := by
      intro n hn
      rw [List.drop_append_of_le_length hn]
      simp
    apply hdrop
    split
    · simp only [List.length_append, List.length_singleton]; omega
    · omega
  · simp

theorem bounded_eq_nil (hmax : maxMessages < 0) (m : α) :
    Messaging.bounded maxMessages [m] = [] := by
  unfold Messaging.bounded Messaging.sliceFrom
  rw [if_pos (by simp; omega), if_neg (by omega)]
  simp
  omega

end Bounded

theorem mem_deliver {maxMessages : Int} {msg : Message} {inboxes : Inboxes} {r : String}
    {msgs : List Message} (hmsgs : deliver maxMessages msg inboxes r = some msgs) {m : Message}
    (hm : m ∈ msgs) : m = msg ∨ ∃ old, inboxes r = some old ∧ m ∈ old := by
  unfold deliver at hmsgs
  split at hmsgs
  · obtain ⟨old, hold, rfl⟩ := Option.map_eq_some_iff.mp hmsgs
    rcases List.mem_append.mp (mem_of_mem_bounded hm) with hm | hm
    · exact .inr ⟨old, hold, hm⟩
    · exact .inl (List.mem_singleton.mp hm)
  · rw [Function.update_apply] at hmsgs
    split at hmsgs
    · next heq =>
      subst heq
      obtain rfl := Option.some.inj hmsgs
      rcases List.mem_append.mp (mem_of_mem_bounded hm) with hm | hm
      · cases hold : inboxes msg.recipient with
        | none => simp [hold] at hm
        | some old => exact .inr ⟨old, rfl, by simpa [hold] using hm⟩
      · exact .inl (List.mem_singleton.mp hm)
    · exact .inr ⟨msgs, hmsgs, hm⟩

/-- A message to a recipient, or a broadcast that finds an inbox. -/
def Reaches (msg : Message) (inboxes : Inboxes) : Prop :=
  msg.recipient = BROADCAST → ∃ r, (inboxes r).isSome

theorem delivered {maxMessages : Int} (hmax : 0 ≤ maxMessages) {msg : Message} {inboxes : Inboxes}
    (hreach : Reaches msg inboxes) :
    ∃ r msgs, deliver maxMessages msg inboxes r = some msgs ∧ msg ∈ msgs := by
  unfold deliver
  by_cases hall : msg.recipient = BROADCAST
  · obtain ⟨r, hr⟩ := hreach hall
    obtain ⟨old, hold⟩ := Option.isSome_iff_exists.mp hr
    exact ⟨r, _, by rw [if_pos hall, hold]; rfl, mem_bounded_snoc hmax old msg⟩
  · exact ⟨msg.recipient, _, by rw [if_neg hall, Function.update_self], mem_bounded_snoc hmax _ msg⟩

theorem deliver_negative {maxMessages : Int} (hmax : maxMessages < 0) {msg : Message}
    {inboxes : Inboxes} (h : ∀ r msgs, inboxes r = some msgs → msgs = []) (r : String)
    (msgs : List Message) (hmsgs : deliver maxMessages msg inboxes r = some msgs) :
    msgs = [] := by
  -- With a negative bound nothing is kept.
  unfold deliver at hmsgs
  split at hmsgs
  · obtain ⟨old, hold, rfl⟩ := Option.map_eq_some_iff.mp hmsgs
    rw [h r old hold]
    exact bounded_eq_nil hmax msg
  · rw [Function.update_apply] at hmsgs
    split at hmsgs
    · obtain rfl := Option.some.inj hmsgs
      cases hold : inboxes msg.recipient with
      | none => exact bounded_eq_nil hmax msg
      | some old =>
        rw [h _ old hold]
        exact bounded_eq_nil hmax msg
    · exact h r msgs hmsgs

/-! ## Calls in a row -/

inductive Label
  | send (a : SendArgs) (t : Stamp)
  | delegate (a : DelegateArgs) (t : Stamp)
  | update (a : UpdateArgs) (t : Stamp)

def returned {α : Type} : Except PyError α × State → Option State
  | (.ok _, s) => some s
  | (.error _, _) => none

/-- A call that returns. -/
def step (bus : TaskBus) (l : Label) (s : State) : Option State :=
  match l with
  | .send a t => returned (send bus a t s)
  | .delegate a t => returned (delegate bus a t s)
  | .update a t => returned (updateStatus bus a t s)

/-- What the call delivers. -/
def Label.message (sp : Spelling) : Label → Message
  | .send a t => a.message t
  | .delegate a t => (a.delegation t).toMessage sp
  | .update a t => (a.delegation t).toMessage sp

/-- No inbox yet, whatever the kanban holds. -/
def start (b : Board) : State := ⟨fun _ => none, b⟩

/-- Neither `delegations` nor `status_of` raises for any inbox. -/
def Readable (bus : TaskBus) (s : State) : Prop :=
  ∀ r, (∀ status, ∃ out, delegations bus.spelling s.inboxes r status = .ok out) ∧
    ∀ taskRef, ∃ out, statusOf bus.spelling s.inboxes r taskRef = .ok out

/-- A message with a task verb that `send` leaves in an inbox names a task, and has a payload that
`dict` takes. -/
def Accepts (bus : TaskBus) (s : State) : Label → Prop
  | .send a t =>
    0 ≤ bus.maxMessages → Reaches (a.message t) s.inboxes → a.msgType ∈ TASK_MSG_TYPES →
    Complete a.body
  | _ => True

/-! ## One call -/

theorem get_setDefault {key other : String} (h : other ≠ key) (d : Dict) (v : Json) :
    Json.get (setDefault d key v) other = Json.get d other := by
  unfold setDefault
  split
  · rfl
  · rw [Json.get, Json.get, List.lookup_append]
    simp [List.lookup_cons, beq_false_of_ne h]

theorem message_complete (a : SendArgs)
    (t : Stamp) : Complete (a.message t).body ↔ Complete a.body := by
  unfold SendArgs.message Complete
  simp only
  split
  · rfl
  · rw [get_setDefault (by decide), get_setDefault (by decide)]

theorem toMessage_complete (d : Delegation)
    (htask : d.taskRef ≠ "") : Complete (d.toMessage sp).body := by
  have hpayload : Json.get (d.toMessage sp).body "payload" =
      .obj (d.payload.map fun kv => (keyText sp kv.1, kv.2)) := rfl
  refine ⟨?_, ?_⟩
  · simpa [Delegation.toMessage, Json.get, Json.truthy] using htask
  · rw [hpayload, Json.or]
    split
    · exact ⟨_, rfl⟩
    · exact ⟨_, rfl⟩

variable (sp) in
theorem keyText_strKeys (e : Dict) : (strKeys e).map (fun kv => (keyText sp kv.1, kv.2)) = e := by
  induction e with
  | nil => rfl
  | cons kv rest ih => exact congrArg (kv :: ·) ih

theorem asDict_payload (e : Dict) : ((Json.obj e).or (.obj [])).asDict = .ok (strKeys e) := by
  cases e with
  | nil => rfl
  | cons kv rest => rfl

/-- A delegation with a task and text keys is read back as it was. -/
theorem fromMessage_toMessage (d : Delegation) {e : Dict} (htask : d.taskRef ≠ "")
    (hpayload : d.payload = strKeys e) : fromMessage sp (d.toMessage sp) = .ok d := by
  have hstatus : DelegationStatus.ofValue (d.toMessage sp).kind = some d.status :=
    DelegationStatus.ofValue_value d.status
  have href : Json.get (d.toMessage sp).body "task_ref" = .str d.taskRef := rfl
  have hsummary : Json.get (d.toMessage sp).body "summary" = .str d.summary := rfl
  have hdict : Json.get (d.toMessage sp).body "payload" = .obj e := by
    rw [← keyText_strKeys sp e, ← hpayload]
    rfl
  have htruthy : (Json.str d.taskRef).truthy = true := by simpa [Json.truthy] using htask
  have htext : ((Json.str d.summary).or (.str "")).toStr sp = d.summary := by
    unfold Json.or
    split
    · rfl
    · next hempty =>
      have hnone : d.summary = "" := by simpa [Json.truthy] using hempty
      rw [hnone]
      rfl
  unfold fromMessage
  rw [hstatus]
  simp only [href, htruthy, hdict, asDict_payload, hsummary, htext, ← hpayload]
  rfl

theorem sendDelegation_eq (bus : TaskBus) {d : Delegation} {e : Dict} (htask : d.taskRef ≠ "")
    (hpayload : d.payload = strKeys e) {t : Stamp} (hid : d.id = t.id) (hts : d.ts = t.ts)
    (s : State) :
    sendDelegation bus d t s =
      (.ok d, { s with inboxes := deliver bus.maxMessages (d.toMessage bus.spelling) s.inboxes }) := by
  have hstored : { d.toMessage bus.spelling with id := t.id, ts := t.ts } = d.toMessage bus.spelling := by
    rw [← hid, ← hts]
    rfl
  simp only [sendDelegation, hstored, fromMessage_toMessage d htask hpayload]

theorem step_inboxes {bus : TaskBus} {l : Label} {s s' : State} (h : step bus l s = some s') :
    s'.inboxes = deliver bus.maxMessages (l.message bus.spelling) s.inboxes := by
  cases l with
  | send a t =>
    -- Every call that is not refused delivers one message.
    simp only [step, send] at h
    split at h
    · cases h
    · obtain rfl := Option.some.inj h
      rfl
  | delegate a t =>
    simp only [step, delegate] at h
    split at h
    · cases h
    split at h
    · cases h
    split at h
    · cases h
    · unfold returned sendDelegation at h
      split at h
      · next heq =>
        obtain rfl := Option.some.inj h
        exact congrArg State.inboxes (Prod.mk.inj heq).2.symm
      · cases h
  | update a t =>
    simp only [step, updateStatus] at h
    split at h
    · cases h
    split at h
    · cases h
    split at h
    · cases h
    · next heq =>
      obtain rfl := Option.some.inj h
      exact congrArg (fun out => out.2.inboxes) heq.symm

theorem step_taskRef {bus : TaskBus} {l : Label} {s s' : State} (h : step bus l s = some s') :
    match l with
    | .send _ _ => True
    | .delegate a _ => a.taskRef ≠ ""
    | .update a _ => a.taskRef ≠ "" := by
  cases l with
  | send a t => trivial
  | delegate a t =>
    intro htask
    simp [step, delegate, htask, returned] at h
  | update a t =>
    intro htask
    simp [step, updateStatus, htask, returned] at h

/-! ## Any sequence of calls -/

theorem readable_iff_sound (bus : TaskBus) (s : State) :
    Readable bus s ↔ ∀ r msgs, s.inboxes r = some msgs → ∀ m ∈ msgs, Sound m := by
  constructor
  · intro h r msgs hmsgs
    have hread := (delegationsLoop_ok_iff bus.spelling none _).mp ((h r).1 none)
    simpa [recv, hmsgs] using hread
  · intro h r
    have hsound : ∀ m ∈ recv s.inboxes r, Sound m := by
      cases hmsgs : s.inboxes r with
      | none => simp [recv, hmsgs]
      | some msgs => simpa [recv, hmsgs] using h r msgs hmsgs
    refine ⟨fun status => (delegationsLoop_ok_iff bus.spelling status _).mpr hsound, fun taskRef => ?_⟩
    obtain ⟨out, hout⟩ := (delegationsLoop_ok_iff bus.spelling none _).mpr hsound
    exact ⟨_, by rw [statusOf, delegations, hout]; rfl⟩

/-- What is kept under a negative bound. -/
def Kept (bus : TaskBus) (s : State) : Prop :=
  bus.maxMessages < 0 → ∀ r msgs, s.inboxes r = some msgs → msgs = []

theorem step_kept {bus : TaskBus} {l : Label} {s s' : State} (hkept : Kept bus s)
    (h : step bus l s = some s') : Kept bus s' := by
  intro hmax
  rw [step_inboxes h]
  exact deliver_negative hmax (hkept hmax)

theorem message_sound {bus : TaskBus} {l : Label} {s s' : State} (h : step bus l s = some s')
    (hmax : 0 ≤ bus.maxMessages) (hreach : Reaches (l.message bus.spelling) s.inboxes) :
    Sound (l.message bus.spelling) ↔ Accepts bus s l := by
  have htask := step_taskRef h
  cases l with
  | send a t =>
    have hsound : Sound (a.message t) ↔ (a.msgType ∈ TASK_MSG_TYPES → Complete a.body) :=
      imp_congr_right fun _ => message_complete a t
    exact hsound.trans ⟨fun hok _ _ => hok, fun hok => hok hmax hreach⟩
  | delegate a t => exact iff_of_true (fun _ => toMessage_complete (a.delegation t) htask) trivial
  | update a t => exact iff_of_true (fun _ => toMessage_complete (a.delegation t) htask) trivial

theorem readable_step_iff {bus : TaskBus} {l : Label} {s s' : State} (hkept : Kept bus s)
    (hgood : Readable bus s) (h : step bus l s = some s') : Readable bus s' ↔ Accepts bus s l := by
  rw [readable_iff_sound] at hgood ⊢
  by_cases hstored : 0 ≤ bus.maxMessages ∧ Reaches (l.message bus.spelling) s.inboxes
  · obtain ⟨hmax, hreach⟩ := hstored
    rw [← message_sound h hmax hreach]
    constructor
    · intro hsound
      obtain ⟨r, msgs, hmsgs, hmem⟩ := delivered hmax hreach
      exact hsound r msgs (step_inboxes h ▸ hmsgs) _ hmem
    · intro hsound r msgs hmsgs m hm
      rw [step_inboxes h] at hmsgs
      rcases mem_deliver hmsgs hm with rfl | ⟨old, hold, hm⟩
      · exact hsound
      · exact hgood r old hold m hm
  · -- The message is in no inbox.
    refine iff_of_true (fun r msgs hmsgs m hm => ?_) ?_
    · by_cases hmax : 0 ≤ bus.maxMessages
      · obtain ⟨hall, hnone⟩ : (l.message bus.spelling).recipient = BROADCAST ∧
            ∀ r, s.inboxes r = none := by
          simpa [hmax, Reaches] using hstored
        rw [step_inboxes h] at hmsgs
        simp [deliver, hall, hnone] at hmsgs
      · rw [step_kept hkept h (by omega) r msgs hmsgs] at hm
        cases hm
    · cases l with
      | send a t => exact fun hmax hreach => absurd ⟨hmax, hreach⟩ hstored
      | delegate a t => trivial
      | update a t => trivial

theorem start_readable (bus : TaskBus) (b : Board) : Readable bus (start b) :=
  (readable_iff_sound bus (start b)).mpr fun r msgs h => by simp [start] at h

theorem start_kept (bus : TaskBus) (b : Board) : Kept bus (start b) := fun _ r msgs h => by
  simp [start] at h

/-- **When every inbox stays readable.** -/
theorem readable_iff (bus : TaskBus) (b : Board) (labels : List Label) :
    (∀ taken ∈ path (step bus) (start b) labels, Readable bus taken.after) ↔
      ∀ taken ∈ path (step bus) (start b) labels, Accepts bus taken.before taken.label :=
  path_good_iff (fun _ _ _ => step_kept) (fun _ _ _ => readable_step_iff) (start b) labels
    (start_kept bus b) (start_readable bus b)

/-! ## A verb without a task -/

/-- A bus as the constructor makes it. -/
def defaultBus : TaskBus := ⟨⟨fun s => "'" ++ s ++ "'", id⟩, 256, false⟩

def bareDone : Label := .send ⟨"codex", "dispatch", "task_done", "all green", [], none⟩ ⟨"m1", 1, 1⟩

theorem bareDone_unreadable :
    ¬ ∀ taken ∈ path (step defaultBus) (start Board.empty) [bareDone],
      Readable defaultBus taken.after := by
  have hsome : (step defaultBus bareDone (start Board.empty)).isSome := by decide +kernel
  obtain ⟨s', hstep⟩ := Option.isSome_iff_exists.mp hsome
  intro h
  have hread : Readable defaultBus s' := ((forall_path_cons hstep).mp h).1
  have haccepts := (readable_step_iff (start_kept _ _) (start_readable _ _) hstep).mp hread
  have hcomplete : Complete [] :=
    haccepts (by decide) (fun hall => absurd hall (by decide)) (by decide)
  exact absurd hcomplete.1 (by decide)

end Swarm.Bus
