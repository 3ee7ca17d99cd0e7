import Swarm.Bus.Terminal
import Swarm.Lib.Mailboxes
import Swarm.Messaging.Inboxes

/-!
# What the recipient sees of a delegation

A call stores its message under an id and a time of its own and gives back the delegation of what it
stored. The recipient makes its delegation of what the file holds.
-/

namespace Swarm.Bus

open Kanban Swarm.Lib

/-! ## Calls, also those that raise -/

namespace Label

def apply (bus : TaskBus) (l : Label) (s : State) : State :=
  match l with
  | .send a t => (Bus.send bus a t s).2
  | .delegate a t => (Bus.delegate bus a t s).2
  | .update a t => (updateStatus bus a t s).2

/-- What the caller gets. A `send` gives no delegation. -/
def result (bus : TaskBus) (l : Label) (s : State) : Except PyError (Option Delegation) :=
  match l with
  | .send a t => (Bus.send bus a t s).1.map fun _ => none
  | .delegate a t => (Bus.delegate bus a t s).1.map some
  | .update a t => (updateStatus bus a t s).1.map some

def stamp : Label → Stamp
  | .send _ t | .delegate _ t | .update _ t => t

def delegation? : Label → Option Delegation
  | .send _ _ => none
  | .delegate a t => some (a.delegation t)
  | .update a t => some (a.delegation t)

/-- What is checked before anything is stored. -/
def check (sp : Spelling) : Label → Except PyError Unit
  | .send a _ => validateSend sp a.sender a.recipient a.msgType
  | .delegate a _ =>
    if a.taskRef = "" then .error (.valueError "task_ref must be a non-empty kanban task id")
    else if a.prompt = "" then .error (.valueError "prompt must be a non-empty string")
    else validateSend sp a.sender a.recipient DelegationStatus.delegated.value
  | .update a _ =>
    if a.taskRef = "" then .error (.valueError "task_ref must be a non-empty kanban task id")
    else validateSend sp a.sender a.recipient a.status.value

@[simp] theorem message_id (sp : Spelling) (l : Label) : (l.message sp).id = l.stamp.id := by
  cases l <;> rfl

end Label

/-- A call that passes its checks delivers its message and gives back the delegation of it. Another
one raises and stores nothing. -/
theorem call_spec (bus : TaskBus) (l : Label) (s : State) :
    l.result bus s = (l.check bus.spelling).map (fun _ => l.delegation?) ∧
      (l.apply bus s).inboxes =
        if (l.check bus.spelling).isOk then deliver bus.maxMessages (l.message bus.spelling) s.inboxes
        else s.inboxes := by
  cases l with
  | send a t =>
    cases hvalid : validateSend bus.spelling a.sender a.recipient a.msgType <;>
      simp only [Label.result, Label.apply, Label.check, Bus.send, hvalid] <;> exact ⟨rfl, rfl⟩
  | delegate a t =>
    by_cases htask : a.taskRef = ""
    · simp only [Label.result, Label.apply, Label.check, Bus.delegate, if_pos htask]
      exact ⟨rfl, rfl⟩
    by_cases hprompt : a.prompt = ""
    · simp only [Label.result, Label.apply, Label.check, Bus.delegate, if_neg htask, if_pos hprompt]
      exact ⟨rfl, rfl⟩
    have hsent := sendDelegation_eq bus (d := a.delegation t) htask rfl rfl rfl s
    cases hvalid : validateSend bus.spelling a.sender a.recipient DelegationStatus.delegated.value <;>
      simp only [Label.result, Label.apply, Label.check, Bus.delegate,
        if_neg htask, if_neg hprompt, hvalid, hsent] <;>
      exact ⟨rfl, rfl⟩
  | update a t =>
    by_cases htask : a.taskRef = ""
    · simp only [Label.result, Label.apply, Label.check, updateStatus, if_pos htask]
      exact ⟨rfl, rfl⟩
    have hsent := sendDelegation_eq bus (d := a.delegation t) htask rfl rfl rfl s
    cases hvalid : validateSend bus.spelling a.sender a.recipient a.status.value <;>
      simp only [Label.result, Label.apply, Label.check, updateStatus, if_neg htask, hvalid, hsent] <;>
      exact ⟨rfl, rfl⟩

/-! ## Calls and drains in a row -/

inductive Event
  | call (l : Label)
  | drain (r : String)

/-- A drain empties the inbox that it lists. -/
def drain (r : String) (s : State) : List Message × State :=
  (recv s.inboxes r, { s with inboxes := Function.update s.inboxes r (some []) })

/-- What the transport does with a message. -/
def Message.mail (msg : Message) : Mail String Message :=
  if msg.recipient = BROADCAST then .broadcast msg else .send msg.recipient msg

namespace Event

def apply (bus : TaskBus) (event : Event) (s : State) : State :=
  match event with
  | .call l => l.apply bus s
  | .drain r => (Bus.drain r s).2

/-- A call that raises sends nothing. -/
def mails (sp : Spelling) : Event → List (Mail String Message)
  | .call l => if (l.check sp).isOk then [(l.message sp).mail] else []
  | .drain r => [.drain r]

end Event

def run (bus : TaskBus) (b : Board) (events : List Event) : State :=
  events.foldl (fun s event => event.apply bus s) (start b)

/-- What has come for `r` since its last drain, under no bound. -/
def received (sp : Spelling) (r : String) (events : List Event) : List Message :=
  (pending r (events.flatMap (Event.mails sp))).getD []

theorem deliver_eq {maxMessages : Int} (hmax : 1 ≤ maxMessages) (msg : Message)
    (inboxes : Inboxes) :
    deliver maxMessages msg inboxes = deliverMail maxMessages.toNat inboxes msg.mail := by
  rw [deliver, Message.mail]
  split
  · simp only [Inboxes.bounded_eq_rtake hmax, deliverMail]
  · rw [Inboxes.bounded_eq_rtake hmax, deliverMail_send]

theorem run_inboxes {bus : TaskBus} (hmax : 1 ≤ bus.maxMessages) (b : Board) (events : List Event) :
    (run bus b events).inboxes = mailboxes bus.maxMessages.toNat (events.flatMap (Event.mails bus.spelling)) := by
  induction events using List.reverseRecOn with
  | nil => rfl
  | append_singleton events event ih =>
    have hrun : run bus b (events ++ [event]) = event.apply bus (run bus b events) := by simp [run]
    rw [hrun, List.flatMap_append, List.flatMap_singleton]
    cases event with
    | call l =>
      have hcall := (call_spec bus l (run bus b events)).2
      simp only [Event.apply, Event.mails]
      rw [hcall, ih]
      split
      · rw [mailboxes_snoc, deliver_eq hmax]
      · rw [List.append_nil]
    | drain r =>
      rw [Event.mails, mailboxes_snoc, ← ih, deliverMail_drain]
      rfl

theorem recv_eq {bus : TaskBus} {b : Board} {events : List Event} {r : String}
    (hmax : 1 ≤ bus.maxMessages)
    (hroom : ((received bus.spelling r events).length : Int) ≤ bus.maxMessages) :
    recv (run bus b events).inboxes r = received bus.spelling r events := by
  rw [recv, run_inboxes hmax, mailboxes_eq]
  unfold received at hroom ⊢
  cases hpending : pending r (events.flatMap (Event.mails bus.spelling)) with
  | none => rfl
  | some msgs =>
    rw [hpending, Option.getD_some] at hroom
    rw [Option.map_some, Option.getD_some, Option.getD_some, rtake_of_length_le (by omega)]

/-! ## The files -/

/-- `repr` of a float gives every float a text of its own. -/
structure Floats where
  text : ℚ → String
  injective : Function.Injective text

/-- The fields as the file has them. -/
def Message.raw (floats : Floats) (m : Message) : Inboxes.Message where
  id := .str m.id
  ts := .float (floats.text m.ts)
  sender := .str m.sender
  recipient := .str m.recipient
  kind := .str m.kind
  body := .obj m.body
  inReplyTo := ofOption .str m.inReplyTo

/-- `MessageBus.send` of a message, with the id and the time that it gets. -/
def Message.op (floats : Floats) (m : Message) : Inboxes.Op :=
  .send ⟨m.sender, m.recipient, m.kind, some m.body, m.inReplyTo⟩ ⟨.str m.id, .float (floats.text m.ts)⟩

/-- The calls of the transport. -/
def Event.ops (floats : Floats) (sp : Spelling) (fresh : Nat → Inboxes.Fresh) :
    Event → List Inboxes.Op
  | .call l => if (l.check sp).isOk then [(l.message sp).op floats] else []
  | .drain r => [.drain r fresh]

theorem op_mail (floats : Floats) (m : Message) :
    (m.op floats).mail = m.mail.map (Message.raw floats) := by
  have hop : (m.op floats).mail =
      if m.recipient = BROADCAST then .broadcast (m.raw floats) else .send m.recipient (m.raw floats) := rfl
  rw [hop, Message.mail]
  split <;> rfl

theorem raw_injective (floats : Floats) : Function.Injective (Message.raw floats) := by
  rintro ⟨id, ts, sender, recipient, kind, body, inReplyTo⟩
    ⟨id', ts', sender', recipient', kind', body', inReplyTo'⟩ h
  simp only [Message.raw, Inboxes.Message.mk.injEq, Json.str.injEq, Json.float.injEq, Json.obj.injEq] at h
  obtain ⟨rfl, hts, rfl, rfl, rfl, rfl, hreply⟩ := h
  obtain rfl := floats.injective hts
  obtain rfl : inReplyTo = inReplyTo' := by
    cases inReplyTo <;> cases inReplyTo' <;> simp_all [ofOption]
  rfl

theorem ops_mail (floats : Floats) (sp : Spelling) (fresh : Nat → Inboxes.Fresh)
    (events : List Event) :
    (events.flatMap (Event.ops floats sp fresh)).map Inboxes.Op.mail =
      (events.flatMap (Event.mails sp)).map (Mail.map (Message.raw floats)) := by
  rw [List.map_flatMap, List.map_flatMap]
  congr 1
  funext event
  cases event with
  | call l =>
    simp only [Event.ops, Event.mails]
    split
    · rw [List.map_singleton, List.map_singleton, op_mail]
    · rfl
  | drain r => rfl

theorem validParticipant_name {name : String} (h : validParticipant name true = true) :
    name = BROADCAST ∨ Inboxes.Name name := by
  unfold validParticipant at h
  split at h
  · next hmem =>
    refine .inr ?_
    have hall : ∀ name ∈ VALID_PARTICIPANTS, name ≠ "" ∧ '/' ∉ name.toList ∧ name ≠ BROADCAST := by
      decide
    obtain ⟨hne, hflat, hone⟩ := hall name hmem
    exact ⟨hne, hflat, hone⟩
  split at h
  · cases h
  split at h
  · next hall => exact .inl hall
  split at h
  · next hprefix =>
    obtain ⟨cls, hcls⟩ := List.isPrefixOf_iff_prefix.mp hprefix
    have hvalue : String.ofList cls ∈ AgentClass.all.map (·.value) := by
      rw [← hcls, List.drop_left] at h
      exact of_decide_eq_true h
    have hflat : ∀ value ∈ AgentClass.all.map (·.value), '/' ∉ value.toList := by decide
    have hcls' : '/' ∉ cls := by simpa using hflat _ hvalue
    refine .inr ⟨?_, ?_, ?_⟩
    · rintro rfl
      exact absurd hprefix (by decide)
    · rw [← hcls, List.mem_append, not_or]
      exact ⟨by decide, hcls'⟩
    · rintro rfl
      exact absurd hprefix (by decide)
  · cases h

theorem check_name {sp : Spelling} {l : Label} (h : (l.check sp).isOk = true) :
    (l.message sp).recipient = BROADCAST ∨ Inboxes.Name (l.message sp).recipient := by
  have hvalid : ∀ {sender recipient msgType : String}, (validateSend sp sender recipient msgType).isOk = true →
      recipient = BROADCAST ∨ Inboxes.Name recipient := by
    intro sender recipient msgType h
    apply validParticipant_name
    unfold validateSend at h
    split at h
    · cases h
    split at h
    · cases h
    · next hname => simpa using hname
  cases l with
  | send a t => exact hvalid h
  | delegate a t =>
    simp only [Label.check] at h
    split at h
    · cases h
    split at h
    · cases h
    · exact hvalid h
  | update a t =>
    simp only [Label.check] at h
    split at h
    · cases h
    · exact hvalid h

/-- The files of a run. -/
def files (floats : Floats) (bus : TaskBus) (fresh : Nat → Inboxes.Fresh) (events : List Event) :
    Inboxes.Files :=
  Inboxes.run bus.maxMessages (events.flatMap (Event.ops floats bus.spelling fresh))

/-- **The files hold the messages of the inboxes, and no others.** -/
theorem recv_files_iff {bus : TaskBus} (hmax : 1 ≤ bus.maxMessages) (floats : Floats)
    (fresh : Nat → Inboxes.Fresh) (b : Board) {events : List Event}
    (hnames : ∀ r, .drain r ∈ events → Inboxes.Name r) (r : String) (msgs : List Message) :
    Inboxes.recv fresh r (files floats bus fresh events) = .ok (msgs.map (Message.raw floats)) ↔
      msgs = recv (run bus b events).inboxes r := by
  have hops : ∀ op ∈ events.flatMap (Event.ops floats bus.spelling fresh), op.Named := by
    intro op hop
    obtain ⟨event, hevent, hop⟩ := List.mem_flatMap.mp hop
    cases event with
    | call l =>
      simp only [Event.ops] at hop
      split at hop
      · next hcheck =>
        rw [List.mem_singleton.mp hop]
        exact check_name hcheck
      · cases hop
    | drain r' =>
      rw [List.mem_singleton.mp hop]
      exact hnames r' hevent
  have hrecv : Inboxes.recv fresh r (files floats bus fresh events) =
      .ok ((recv (run bus b events).inboxes r).map (Message.raw floats)) := by
    rw [files, Inboxes.recv_run hmax hops, ops_mail, pending_map, recv, run_inboxes hmax, mailboxes_eq]
    cases pending r (events.flatMap (Event.mails bus.spelling)) with
    | none => simp
    | some sent => simp [List.rtake]
  rw [hrecv, Except.ok.injEq, (raw_injective floats).list_map.eq_iff, eq_comm]

/-! ## One call among others -/

theorem result_spec {bus : TaskBus} {l : Label} {s : State} {e : Delegation}
    (h : l.result bus s = .ok (some e)) :
    (l.check bus.spelling).isOk ∧ (l.message bus.spelling).recipient = e.recipient ∧
      e.id = l.stamp.id ∧
      fromMessage bus.spelling (l.message bus.spelling) = .ok e := by
  rw [(call_spec bus l s).1] at h
  cases hcheck : l.check bus.spelling with
  | error err => simp [hcheck, Except.map] at h
  | ok u =>
    have hgiven : l.delegation? = some e := by simpa [hcheck, Except.map] using h
    cases l with
    | send a t => cases hgiven
    | delegate a t =>
      obtain rfl := Option.some.inj hgiven
      have htask : a.taskRef ≠ "" := fun htask => by simp [Label.check, htask] at hcheck
      exact ⟨rfl, rfl, rfl, fromMessage_toMessage (a.delegation t) htask rfl⟩
    | update a t =>
      obtain rfl := Option.some.inj hgiven
      have htask : a.taskRef ≠ "" := fun htask => by simp [Label.check, htask] at hcheck
      exact ⟨rfl, rfl, rfl, fromMessage_toMessage (a.delegation t) htask rfl⟩

theorem result_of_check {bus : TaskBus} {l : Label} (h : (l.check bus.spelling).isOk = true)
    (s : State) :
    l.result bus s = .ok l.delegation? := by
  rw [(call_spec bus l s).1]
  cases hcheck : l.check bus.spelling with
  | error err => simp [hcheck, Except.isOk, Except.toBool] at h
  | ok u => rfl

theorem call_of_mem_mails {sp : Spelling} {events : List Event} {r : String} {m : Message}
    (h : .broadcast m ∈ events.flatMap (Event.mails sp) ∨
      .send r m ∈ events.flatMap (Event.mails sp)) :
    ∃ l, .call l ∈ events ∧ m = l.message sp := by
  have hone : ∀ mail ∈ events.flatMap (Event.mails sp), mail = .broadcast m ∨ mail = .send r m →
      ∃ l, .call l ∈ events ∧ m = l.message sp := by
    intro mail hmail heq
    obtain ⟨event, hevent, hmail⟩ := List.mem_flatMap.mp hmail
    cases event with
    | call l =>
      refine ⟨l, hevent, ?_⟩
      simp only [Event.mails] at hmail
      split at hmail
      · rw [List.mem_singleton.mp hmail, Message.mail] at heq
        split at heq <;> simp_all
      · cases hmail
    | drain r' =>
      rw [List.mem_singleton.mp hmail] at heq
      simp at heq
  rcases h with h | h
  · exact hone _ h (.inl rfl)
  · exact hone _ h (.inr rfl)

theorem drain_not_mem_mails {sp : Spelling} {events : List Event} {r : String}
    (h : .drain r ∉ events) :
    .drain r ∉ events.flatMap (Event.mails sp) := by
  intro hmem
  obtain ⟨event, hevent, hmail⟩ := List.mem_flatMap.mp hmem
  cases event with
  | call l =>
    simp only [Event.mails] at hmail
    split at hmail
    · rw [List.mem_singleton, Message.mail] at hmail
      split at hmail <;> cases hmail
    · cases hmail
  | drain r' =>
    obtain rfl : r = r' := by simpa [Event.mails] using hmail
    exact h hevent

theorem received_around {sp : Spelling} {l : Label} (past : List Event) {later : List Event}
    (hcheck : (l.check sp).isOk = true)
    (hliteral : (l.message sp).recipient ≠ BROADCAST)
    (hdrain : .drain (l.message sp).recipient ∉ later) :
    ∃ more, received sp (l.message sp).recipient (past ++ .call l :: later) =
        received sp (l.message sp).recipient past ++ l.message sp :: more ∧
      ∀ m ∈ more, ∃ l', .call l' ∈ later ∧ m = l'.message sp := by
  -- The message of a call has its place after what has come before it.
  have hmails : (past ++ .call l :: later).flatMap (Event.mails sp) =
      (past.flatMap (Event.mails sp) ++ [.send (l.message sp).recipient (l.message sp)]) ++
        later.flatMap (Event.mails sp) := by
    simp [List.flatMap_append, List.flatMap_cons, Event.mails, hcheck, Message.mail, hliteral]
  obtain ⟨more, hmore, hfrom⟩ := pending_append
    (past.flatMap (Event.mails sp) ++ [.send (l.message sp).recipient (l.message sp)]) (drain_not_mem_mails hdrain)
  refine ⟨more, ?_, fun m hm => call_of_mem_mails (hfrom m hm)⟩
  rw [received, hmails, hmore, pending_snoc]
  simp [arrive, received]

theorem not_mem_handoffs {sp : Spelling} {e : Delegation} {msgs : List Message}
    (hids : ∀ m ∈ msgs, m.id ≠ e.id) :
    e ∉ handoffs sp msgs := by
  -- A delegation of other calls has another id.
  intro he
  obtain ⟨m, hm, hid⟩ := mem_handoffs he
  exact hids m hm hid.symm

/-- **When the recipient finds what the caller was given, once and in its place.** The files hold
what a read makes its delegations of. -/
theorem survives_iff {bus : TaskBus} {b : Board} {past later : List Event} {l : Label}
    {e : Delegation} (hresult : l.result bus (run bus b past) = .ok (some e))
    (hliteral : e.recipient ≠ BROADCAST) (hdrain : .drain e.recipient ∉ later)
    (hroom : ((received bus.spelling e.recipient (past ++ .call l :: later)).length : Int) ≤ bus.maxMessages)
    (hids : ∀ l', .call l' ∈ past ++ later → l'.stamp.id ≠ l.stamp.id) :
    let events := past ++ .call l :: later
    let inboxes := (run bus b events).inboxes
    (∀ (d : Delegation) (payload : Dict), d.taskRef ≠ "" → d.payload = strKeys payload →
        fromMessage bus.spelling (d.toMessage bus.spelling) = .ok d) ∧
      (∀ (floats : Floats) (fresh : Nat → Inboxes.Fresh), (∀ r, .drain r ∈ events → Inboxes.Name r) →
        ∀ msgs, Inboxes.recv fresh e.recipient (files floats bus fresh events) =
          .ok (msgs.map (Message.raw floats)) ↔ msgs = recv inboxes e.recipient) ∧
      ((∃ before after,
          delegations bus.spelling inboxes e.recipient none = .ok (before ++ e :: after) ∧
            delegationsLoop bus.spelling none (received bus.spelling e.recipient past) = .ok before ∧
            e ∉ before ∧ e ∉ after) ↔
        ∀ m ∈ received bus.spelling e.recipient events, Sound m) := by
  intro events inboxes
  obtain ⟨hcheck, hrecipient, hid, hstored⟩ := result_spec hresult
  rw [← hrecipient] at hliteral hdrain
  obtain ⟨more, haround, hmore⟩ := received_around past hcheck hliteral hdrain
  rw [hrecipient] at haround
  have hmax : 1 ≤ bus.maxMessages := by
    rw [haround, List.length_append, List.length_cons] at hroom
    omega
  have hrecv : recv inboxes e.recipient = received bus.spelling e.recipient events :=
    recv_eq hmax hroom
  refine ⟨fun d payload => fromMessage_toMessage d, fun floats fresh hnames msgs =>
    recv_files_iff hmax floats fresh b hnames e.recipient msgs, ?_⟩
  rw [delegations, hrecv]
  constructor
  · rintro ⟨before, after, hread, -⟩
    exact (delegationsLoop_ok_iff bus.spelling none _).mp ⟨_, hread⟩
  · intro hsound
    -- The delegation has its place behind what has come before it.
    have hread : handoffs bus.spelling (received bus.spelling e.recipient events) =
        handoffs bus.spelling (received bus.spelling e.recipient past) ++ e :: handoffs bus.spelling more := by
      rw [haround]
      simp [handoffs, hstored, Except.toOption]
    have hearlier : ∀ m ∈ received bus.spelling e.recipient past, Sound m := fun m hm =>
      hsound m (by rw [haround]; exact List.mem_append_left _ hm)
    refine ⟨_, _, (delegationsLoop_spec hsound).trans (congrArg Except.ok hread), delegationsLoop_spec hearlier,
      not_mem_handoffs fun m hm => ?_, not_mem_handoffs fun m hm => ?_⟩
    · obtain ⟨l', hl', rfl⟩ := call_of_mem_mails (mem_pending hm)
      rw [Label.message_id, hid]
      exact hids l' (List.mem_append_left _ hl')
    · obtain ⟨l', hl', rfl⟩ := hmore m hm
      rw [Label.message_id, hid]
      exact hids l' (List.mem_append_right _ hl')

/-! ## A verb without a task before it -/

def handArgs : DelegateArgs :=
  ⟨"planner", "dispatch", "t1", "fix it", "", none, none, none, none, none, none, []⟩

def hand : Label := .delegate handArgs ⟨"m2", 2, 2⟩

def handed : Delegation := handArgs.delegation ⟨"m2", 2, 2⟩

def ask : Label := .send ⟨"codex", "dispatch", "question", "which task?", [], none⟩ ⟨"m1", 1, 1⟩

theorem hand_check : (hand.check defaultBus.spelling).isOk = true := by decide +kernel

theorem ask_check : (ask.check defaultBus.spelling).isOk = true := by decide +kernel

theorem bareDone_check : (bareDone.check defaultBus.spelling).isOk = true := by decide +kernel

theorem received_pair {sp : Spelling} {l l' : Label} (hcheck : (l.check sp).isOk = true)
    (hcheck' : (l'.check sp).isOk = true) (hr : (l.message sp).recipient = "dispatch")
    (hr' : (l'.message sp).recipient = "dispatch") :
    received sp "dispatch" [.call l, .call l'] = [l.message sp, l'.message sp] := by
  have hone : "dispatch" ≠ BROADCAST := by decide
  simp [received, Event.mails, hcheck, hcheck', Message.mail, hr, hr', hone, pending, arrive]

theorem asked_survives :
    ∃ before after,
      delegations defaultBus.spelling
          (run defaultBus Board.empty [.call ask, .call hand]).inboxes "dispatch" none =
        .ok (before ++ handed :: after) ∧ handed ∉ before ∧ handed ∉ after := by
  have hreceived := received_pair ask_check hand_check rfl rfl
  have hroom : ((received defaultBus.spelling handed.recipient ([.call ask] ++ .call hand :: [])).length : Int) ≤
      defaultBus.maxMessages := by
    rw [show handed.recipient = "dispatch" from rfl, List.singleton_append, hreceived]
    decide
  have hids : ∀ l', .call l' ∈ [Event.call ask] ++ [] → l'.stamp.id ≠ hand.stamp.id := by
    intro l' hl'
    obtain rfl : l' = ask := by simpa using hl'
    decide
  have hsound : ∀ m ∈ received defaultBus.spelling "dispatch" [.call ask, .call hand], Sound m := by
    rw [hreceived]
    refine List.forall_mem_cons.mpr ⟨fun htask => absurd htask (by decide), ?_⟩
    exact List.forall_mem_singleton.mpr fun _ => toMessage_complete handed (by decide)
  have hresult := result_of_check hand_check (run defaultBus Board.empty [.call ask])
  obtain ⟨before, after, hread, -, hbefore, hafter⟩ :=
    (survives_iff hresult (by decide) (by simp) hroom hids).2.2.mpr hsound
  exact ⟨before, after, hread, hbefore, hafter⟩

/-- The caller gets the delegation, and the recipient an error. -/
theorem bareDone_hides :
    hand.result defaultBus (run defaultBus Board.empty [.call bareDone]) = .ok (some handed) ∧
      ¬ ∃ before after,
        delegations defaultBus.spelling
            (run defaultBus Board.empty [.call bareDone, .call hand]).inboxes "dispatch" none =
          .ok (before ++ handed :: after) := by
  refine ⟨result_of_check hand_check _, ?_⟩
  rintro ⟨before, after, hread⟩
  have hreceived := received_pair bareDone_check hand_check rfl rfl
  rw [delegations, recv_eq (by decide) (by rw [hreceived]; decide), hreceived] at hread
  have hsound := (delegationsLoop_ok_iff defaultBus.spelling none _).mp ⟨_, hread⟩
  have hcomplete : Complete [] := hsound _ List.mem_cons_self (by decide)
  exact absurd hcomplete.1 (by decide)

end Swarm.Bus
