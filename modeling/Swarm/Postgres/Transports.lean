import Swarm.Bus.Terminal
import Swarm.Lib.Lanes
import Swarm.Postgres.Gates
import Swarm.Postgres.Spec

/-!
# The two transports side by side

Each gets the same delegations in the same order. The inbox files hold what was sent to a recipient;
the table also shows each recipient the lane `all`, and a read has a limit.
-/

namespace Swarm.Postgres

open Swarm.Bus Swarm.Kanban Swarm.Lib

/-! ## What is sent and what is listed -/

/-- A delegation between literal participants, with the ids and times of its two messages. -/
structure Delivery where
  handoff : Handoff
  inReplyTo : Option String
  stamp : Stamp
  now : ℚ
  sender_valid : handoff.sender ∈ VALID_PARTICIPANTS
  recipient_valid : handoff.recipient ∈ VALID_PARTICIPANTS

def Delivery.delegation (d : Delivery) : Delegation where
  taskRef := d.handoff.taskRef
  sender := d.handoff.sender
  recipient := d.handoff.recipient
  status := d.handoff.status
  id := d.stamp.id
  ts := d.stamp.ts
  summary := d.handoff.summary
  branch := ofOption .str d.handoff.branch
  prNumber := ofOption .int d.handoff.prNumber
  payload := strKeys d.handoff.payload
  inReplyTo := d.inReplyTo

/-- What the transports should agree on. -/
structure View where
  taskRef : String
  sender : String
  recipient : String
  status : DelegationStatus
  summary : String
  branch : Json
  prNumber : Json
  payload : List (Json × Json)

def ofDelegation (d : Delegation) : View :=
  ⟨d.taskRef, d.sender, d.recipient, d.status, d.summary, d.branch, d.prNumber, d.payload⟩

def ofHandoff (h : Handoff) : View :=
  ⟨h.taskRef, h.sender, h.recipient, h.status, h.summary, ofOption .str h.branch, ofOption .int h.prNumber,
    strKeys h.payload⟩

/-- A delivery over the files. -/
def sendFile (bus : TaskBus) (s : State) (d : Delivery) : State :=
  (Bus.sendDelegation bus d.delegation d.stamp s).2

/-- The same delivery over the table. -/
def sendTable (takes : Values → Bool) (s : PostgresBus × Database) (d : Delivery) :
    PostgresBus × Database :=
  (sendDelegation takes s.1 d.handoff d.now s.2).2

/-- A database without the table, and a client as the constructor makes it. -/
def fresh (sp : Spelling) : PostgresBus × Database := (⟨sp, true, false⟩, ⟨none, [], false, false⟩)

/-- Both transports list the same handoffs to every participant. -/
def Agree (takes : Values → Bool) (bus : TaskBus) (b : Board) (ds : List Delivery) : Prop :=
  let files := ds.foldl (sendFile bus) (Bus.start b)
  let table := ds.foldl (sendTable takes) (fresh bus.spelling)
  ∀ r ∈ VALID_PARTICIPANTS, ∃ listed listed',
    Bus.delegations bus.spelling files.inboxes r none = .ok listed ∧
      (delegations table.1 r none false 100 table.2).1 = .ok listed' ∧
      listed.map ofDelegation = listed'.map ofHandoff

/-! ## The condition -/

/-- A delegation that both transports take as it is. -/
def Carried (takes : Values → Bool) (d : Delivery) : Prop :=
  d.handoff.taskRef ≠ "" ∧ d.handoff.summary ≠ "" ∧ d.handoff.sender ≠ "all" ∧ takes d.handoff.values = true

/-- The delivery is for `r`. -/
def goesTo (r : String) (d : Delivery) : Bool := d.handoff.recipient == r

/-- A delegation in the lane `all` that `r` is shown too. -/
def intrudes (r : String) (d : Delivery) : Bool :=
  d.handoff.recipient == "all" && d.handoff.recipient != r

/-- No list is over the limit, and where `all` is shown it comes after the first hundred. -/
def Fits (r : String) (ds : List Delivery) : Prop :=
  (ds.filter (goesTo r)).length ≤ 100 ∧ AfterFirst (goesTo r) (intrudes r) 100 ds

/-! ## The files -/

variable {takes : Values → Bool} {bus : TaskBus}

def Delivery.message (sp : Spelling) (d : Delivery) : Message := d.delegation.toMessage sp

theorem literal_ne_broadcast {name : String} (h : name ∈ VALID_PARTICIPANTS) :
    name ≠ BROADCAST := by
  rintro rfl
  exact absurd h (by decide)

theorem addressed_iff (sp : Spelling) (inboxes : Inboxes) (d : Delivery) (r : String) :
    Addressed inboxes (d.message sp).recipient r ↔ goesTo r d = true := by
  have hrecipient : (d.message sp).recipient = d.handoff.recipient := rfl
  rw [Addressed, hrecipient, if_neg (literal_ne_broadcast d.recipient_valid)]
  rw [goesTo, beq_iff_eq]
  exact eq_comm

theorem recv_sendFile (s : State) (d : Delivery) {r : String}
    (hroom : ((recv s.inboxes r).length : Int) + 1 ≤ bus.maxMessages) :
    recv (sendFile bus s d).inboxes r =
      recv s.inboxes r ++ if goesTo r d then [d.message bus.spelling] else [] := by
  have hinboxes : (sendFile bus s d).inboxes = deliver bus.maxMessages (d.message bus.spelling) s.inboxes := rfl
  have hall : remaining bus.maxMessages (recv s.inboxes r) = recv s.inboxes r := by
    have hnone : ((recv s.inboxes r).length + 1 - bus.maxMessages).toNat = 0 := by omega
    rw [remaining, if_neg (by omega), hnone, List.drop_zero]
  rw [hinboxes]
  by_cases hr : goesTo r d = true
  · rw [recv_deliver (by omega) ((addressed_iff _ _ d r).mpr hr), hall, if_pos hr]
  · rw [recv_deliver_other (mt (addressed_iff _ _ d r).mp hr), if_neg hr, List.append_nil]

theorem recv_files (b : Board) (ds : List Delivery) (hlarge : (ds.length : Int) ≤ bus.maxMessages)
    (r : String) :
    recv (ds.foldl (sendFile bus) (Bus.start b)).inboxes r =
      (ds.filter (goesTo r)).map (Delivery.message bus.spelling) := by
  induction ds using List.reverseRecOn with
  | nil => rfl
  | append_singleton ds d ih =>
    rw [List.length_append, List.length_singleton] at hlarge
    have hsofar := ih (by omega)
    have hfew := List.length_filter_le (goesTo r) ds
    rw [List.foldl_append, List.foldl_cons, List.foldl_nil,
      recv_sendFile _ _ (by rw [hsofar, List.length_map]; omega),
      hsofar, List.filter_append, List.map_append]
    congr 1
    by_cases hr : goesTo r d = true <;> simp [hr]

theorem listed_files (sp : Spelling) (ds : List Delivery) :
    (∀ d ∈ ds, d.handoff.taskRef ≠ "") →
      delegationsLoop sp none (ds.map (Delivery.message sp)) =
        .ok (ds.map Delivery.delegation) := by
  intro htask
  have hsound : ∀ m ∈ ds.map (Delivery.message sp), Sound m := by
    intro m hm
    obtain ⟨d, hd, rfl⟩ := List.mem_map.mp hm
    exact fun _ => toMessage_complete d.delegation (htask d hd)
  rw [delegationsLoop_spec hsound, handoffs, List.filterMap_map]
  congr 1
  rw [← List.filterMap_eq_map]
  refine List.filterMap_congr fun d hd => ?_
  simp [Delivery.message, fromMessage_toMessage d.delegation (htask d hd) rfl, Except.toOption]

theorem task_of_listed {sp : Spelling} {ds : List Delivery} {out : List Delegation}
    (h : delegationsLoop sp none (ds.map (Delivery.message sp)) = .ok out) :
    ∀ d ∈ ds, d.handoff.taskRef ≠ "" := by
  intro d hd htask
  have hsound := (delegationsLoop_ok_iff sp none _).mp ⟨out, h⟩ _ (List.mem_map_of_mem hd)
  have hkind : (d.message sp).kind ∈ TASK_MSG_TYPES :=
    (mem_task_iff _).mpr ⟨_, DelegationStatus.ofValue_value d.handoff.status⟩
  have htruthy : (Json.str d.handoff.taskRef).truthy = true := (hsound hkind).1
  simp [Json.truthy, htask] at htruthy

/-! ## The table -/

def Row.values (r : Row) : Values :=
  ⟨r.sender, r.recipient, r.msgType, r.summary, r.taskRef, r.branch, r.prNumber, r.payload, r.ackOf⟩

/-- Once the migration has run, if it has to, the table has the three checks and rows with `vs`. -/
def Holds (s : PostgresBus × Database) (vs : List Values) : Prop :=
  ∃ bus db t, maybeMigrate s.1 s.2 = (.ok (), bus, db) ∧ (bus.autoMigrate && !bus.migrated) = false ∧
    db.table = some t ∧ t.constraints = widenings.map (·.constraint) ∧ t.rows.map Row.values = vs

theorem maybeMigrate_settled {bus : PostgresBus} (h : (bus.autoMigrate && !bus.migrated) = false)
    (db : Database) :
    maybeMigrate bus db = (.ok (), bus, db) := by
  simp [maybeMigrate, h]

theorem fresh_holds (sp : Spelling) : Holds (fresh sp) [] := by
  obtain ⟨t, hrows, -, hcs, hrun⟩ :=
    ensureSchema_spec sp (fresh sp).2 .empty rfl (by simp [Table.empty])
  refine ⟨⟨sp, true, true⟩, migrated (fresh sp).2 t, t, ?_, rfl, rfl, ?_, ?_⟩
  · have hruns : ((fresh sp).1.autoMigrate && !(fresh sp).1.migrated) = true := rfl
    have hspelling : (fresh sp).1.spelling = sp := rfl
    unfold maybeMigrate
    rw [if_pos hruns, hspelling, hrun]
    rfl
  · simpa [replaced, Table.empty] using hcs
  · simp [hrows, Table.empty]

/-- Whether the table takes a delegation. -/
def stores (takes : Values → Bool) (d : Delivery) : Bool :=
  d.handoff.sender != "all" && takes d.handoff.values

theorem status_valid (s : DelegationStatus) : s.value ∈ TASK_MSG_TYPES :=
  List.mem_map_of_mem (by cases s <;> decide)

theorem values_valid (sp : Spelling) (d : Delivery) : d.handoff.values.summary ≠ "" ∧
    validateSend sp d.handoff.values.sender d.handoff.values.recipient d.handoff.values.msgType =
      .ok () := by
  refine ⟨?_, (validateSend_ok_iff sp _ _ _).mpr ⟨d.sender_valid, .inl d.recipient_valid, ?_⟩⟩
  · unfold Handoff.values
    split
    · intro hempty
      have hlength := congrArg String.length hempty
      simp [String.length_append] at hlength
    · assumption
  · exact List.mem_append_left _ (List.mem_append_right _ (status_valid d.handoff.status))

theorem lane_literal (d : Delivery) :
    lane d.handoff.values.recipient = d.handoff.values.recipient :=
  if_neg (literal_ne_broadcast d.recipient_valid)

theorem accepts_handoff_iff {t : Table} (hcs : t.constraints = widenings.map (·.constraint))
    (d : Delivery) (id : Nat) :
    t.Accepts (d.handoff.values.row id d.now) ↔ d.handoff.sender ≠ "all" := by
  have hknown := stored_known_iff d.handoff.values id d.now
  rw [known_iff, stored, lane_literal] at hknown
  rw [Table.Accepts, hcs, List.forall_mem_map, hknown]
  have htype : d.handoff.values.msgType ∈ VALID_MSG_TYPES :=
    List.mem_append_left _ (List.mem_append_right _ (status_valid d.handoff.status))
  exact ⟨fun h => h.1.2, fun h => ⟨⟨d.sender_valid, h⟩, .inl d.recipient_valid, htype⟩⟩

variable (takes) in
theorem sendTable_holds {s : PostgresBus × Database} {vs : List Values} (h : Holds s vs)
    (d : Delivery) :
    Holds (sendTable takes s d) (vs ++ if stores takes d then [d.handoff.values] else []) := by
  obtain ⟨bus, db, t, hmigrate, hsettled, htable, hcs, hrows⟩ := h
  obtain ⟨hsummary, hvalid⟩ := values_valid s.1.spelling d
  have hsend : sendTable takes s d =
      if takes d.handoff.values then (bus, { db with table := some (t.insert d.handoff.values d.now).2 })
      else (bus, db) := by
    unfold sendTable sendDelegation send
    rw [if_neg hsummary, hvalid]
    simp only [hmigrate, htable, lane_literal]
    cases takes d.handoff.values <;> rfl
  rw [hsend]
  have haccepts := accepts_handoff_iff hcs d t.nextId
  cases htakes : takes d.handoff.values with
  | false =>
    exact ⟨bus, db, t, maybeMigrate_settled hsettled db, hsettled, htable, hcs, by simp [stores, htakes, hrows]⟩
  | true =>
    refine ⟨bus, _, _, maybeMigrate_settled hsettled _, hsettled, rfl, (insert_constraints _ _ t).trans hcs, ?_⟩
    rcases insert_spec d.handoff.values d.now t with ⟨hok, t', hins, hnew⟩ | ⟨hrefused, e, t', hins, hold⟩
    · have hstores : stores takes d = true := by simpa [stores, htakes] using haccepts.mp hok
      rw [hins, hnew, hstores, List.map_append, hrows]
      rfl
    · have hstores : stores takes d = false := by simpa [stores, htakes, haccepts] using hrefused
      rw [hins, hold, hstores, hrows]
      simp

variable (takes) in
theorem table_holds (sp : Spelling) (ds : List Delivery) :
    Holds (ds.foldl (sendTable takes) (fresh sp)) ((ds.filter (stores takes)).map (·.handoff.values)) := by
  induction ds using List.reverseRecOn with
  | nil => exact fresh_holds sp
  | append_singleton ds d ih =>
    have hsent := sendTable_holds takes ih d
    rw [List.foldl_append, List.foldl_cons, List.foldl_nil, List.filter_append, List.map_append]
    cases hstores : stores takes d <;> simpa [hstores] using hsent

/-- What `r` is shown. -/
def shown (r : String) (d : Delivery) : Bool :=
  d.handoff.recipient == r || d.handoff.recipient == "all"

/-- A delegation as the table gives it back. -/
def Delivery.listed (d : Delivery) : Handoff :=
  { d.handoff with summary := d.handoff.values.summary }

theorem row_handoff (sp : Spelling) {r : Row} {d : Delivery} (h : r.values = d.handoff.values) :
    r.handoff sp = .ok d.listed := by
  simp only [Row.values, Handoff.values, Values.mk.injEq] at h
  obtain ⟨hsender, hrecipient, htype, hsummary, htask, hbranch, hnumber, hpayload, -⟩ := h
  have hstatus : DelegationStatus.ofValue r.msgType = some d.handoff.status := by
    rw [htype]
    exact DelegationStatus.ofValue_value d.handoff.status
  unfold Row.handoff Delivery.listed Handoff.values
  rw [hstatus, hsender, hrecipient, hsummary, htask, hbranch, hnumber, hpayload]
  rfl

theorem mapM_ok {α β γ : Type} {f : α → Except PyError β} {g : γ → β} {xs : List α} {ys : List γ}
    (h : List.Forall₂ (fun x y => f x = .ok (g y)) xs ys) : xs.mapM f = .ok (ys.map g) := by
  induction h with
  | nil => rfl
  | cons hx hrest ih =>
    rw [List.mapM_cons, hx, ih]
    rfl

theorem listed_table {s : PostgresBus × Database} {ds : List Delivery}
    (h : Holds s (ds.map (·.handoff.values))) {r : String} (hr : r ∈ VALID_PARTICIPANTS) :
    (delegations s.1 r none false 100 s.2).1 =
      .ok (((ds.filter (shown r)).take 100).map Delivery.listed) := by
  obtain ⟨bus, db, t, hmigrate, -, htable, -, hrows⟩ := h
  let select : Row → Bool := PollArgs.selects ⟨r, false, none, TASK_MSG_TYPES, 100⟩
  have hsame : List.Forall₂ (fun row d => row.values = d.handoff.values) t.rows ds := by
    have heq : List.Forall₂ Eq (t.rows.map Row.values) (ds.map (·.handoff.values)) := by
      rw [hrows]
      exact List.forall₂_refl _
    exact List.forall₂_map_left_iff.mp (List.forall₂_map_right_iff.mp heq)
  have hselect : ∀ row (d : Delivery), row.values = d.handoff.values → (select row = true ↔ shown r d = true) := by
    intro row d hvalues
    have hrecipient : row.recipient = d.handoff.recipient := congrArg Values.recipient hvalues
    have htype : row.msgType = d.handoff.status.value := congrArg Values.msgType hvalues
    have hvalid := status_valid d.handoff.status
    simp [select, PollArgs.selects, shown, hrecipient, htype, hvalid]
  have hpolled : List.Forall₂ (fun row d => row.values = d.handoff.values)
      ((t.rows.filter select).take 100) ((ds.filter (shown r)).take 100) :=
    List.forall₂_take 100 (List.rel_filter (fun row d hvalues => hselect row d hvalues) hsame)
  have hmapped : ((t.rows.filter select).take 100).mapM (Row.handoff s.1.spelling) =
      .ok (((ds.filter (shown r)).take 100).map Delivery.listed) :=
    mapM_ok (hpolled.imp fun row d hvalues => row_handoff s.1.spelling hvalues)
  have hpoll : poll s.1 ⟨r, false, none, TASK_MSG_TYPES, 100⟩ s.2 =
      (.ok ((t.rows.filter select).take 100), bus, db) := by
    unfold poll
    rw [if_neg (by simp [hr]), hmigrate]
    simp only [htable]
    rfl
  unfold delegations
  simp only [hpoll, hmapped]

/-! ## One participant -/

theorem view_listed (d : Delivery) :
    ofDelegation d.delegation = ofHandoff d.listed ↔ d.handoff.summary ≠ "" := by
  have hview : ofDelegation d.delegation = ofHandoff d.listed ↔ d.handoff.summary = d.handoff.values.summary := by
    simp [ofDelegation, Delivery.delegation, ofHandoff, Delivery.listed]
  rw [hview]
  constructor
  · intro hsame hempty
    exact (values_valid plainSpelling d).1 (hsame ▸ hempty)
  · intro hsummary
    simp [Handoff.values, hsummary]

theorem filter_shown (r : String) (ds : List Delivery) :
    ((ds.filter (stores takes)).filter (shown r)).filter (goesTo r) =
      (ds.filter (goesTo r)).filter (stores takes) := by
  simp only [List.filter_filter]
  congr 1
  funext d
  cases hr : goesTo r d with
  | false => simp
  | true =>
    simp only [goesTo] at hr
    simp [shown, hr]

theorem same_of_views {n : Nat} {r : String} {ds : List Delivery}
    (h : (ds.filter (goesTo r)).map (fun d => ofDelegation d.delegation) =
      (((ds.filter (stores takes)).filter (shown r)).take n).map (fun d => ofHandoff d.listed)) :
    ((ds.filter (stores takes)).filter (shown r)).take n = ds.filter (goesTo r) ∧
      ∀ d ∈ ds.filter (goesTo r), stores takes d = true ∧ d.handoff.summary ≠ "" := by
  let sent := ds.filter (goesTo r)
  let polled := ((ds.filter (stores takes)).filter (shown r)).take n
  have hrecipients : sent.map (·.handoff.recipient) = polled.map (·.handoff.recipient) := by
    have hmapped := congrArg (List.map View.recipient) h
    rw [List.map_map, List.map_map] at hmapped
    exact hmapped
  have hgoes : ∀ d ∈ polled, goesTo r d = true := by
    intro d hd
    have hmem : d.handoff.recipient ∈ sent.map (·.handoff.recipient) := by
      rw [hrecipients]
      exact List.mem_map_of_mem hd
    obtain ⟨d', hd', heq⟩ := List.mem_map.mp hmem
    have hr := (List.mem_filter.mp hd').2
    unfold goesTo at hr ⊢
    rwa [← heq]
  have hsub : polled.Sublist (sent.filter (stores takes)) := by
    rw [← List.filter_eq_self.mpr hgoes, ← filter_shown]
    exact (List.take_sublist n _).filter _
  have hlength : sent.length = polled.length := by simpa using congrArg List.length hrecipients
  have hall : sent.filter (stores takes) = sent :=
    List.filter_sublist.eq_of_length_le (hlength ▸ hsub.length_le)
  have hpolled : polled = sent := (hall ▸ hsub).eq_of_length hlength.symm
  have hviews : ∀ d ∈ sent, ofDelegation d.delegation = ofHandoff d.listed := by
    refine List.map_inj_left.mp ?_
    have hsame : sent.map (fun d => ofDelegation d.delegation) = polled.map (fun d => ofHandoff d.listed) := h
    rwa [hpolled] at hsame
  exact ⟨hpolled, fun d hd => ⟨List.filter_eq_self.mp hall d hd, (view_listed d).mp (hviews d hd)⟩⟩

/-! ## All participants -/

theorem carried_iff (d : Delivery) :
    Carried takes d ↔ d.handoff.taskRef ≠ "" ∧ stores takes d = true ∧ d.handoff.summary ≠ "" := by
  simp only [Carried, stores, Bool.and_eq_true, bne_iff_ne]
  tauto

theorem fits_iff (r : String) (ds : List Delivery) :
    Fits r ds ↔ (ds.filter (shown r)).take 100 = ds.filter (goesTo r) := by
  have hdisjoint : ∀ d, goesTo r d = true → intrudes r d = false := by
    intro d hd
    rw [goesTo, beq_iff_eq] at hd
    simp [intrudes, hd]
  have hshown : ds.filter (shown r) = ds.filter fun d => goesTo r d || intrudes r d := by
    congr 1
    funext d
    simp only [shown, goesTo, intrudes, bne]
    cases d.handoff.recipient == r <;> simp
  rw [hshown, take_lanes_iff hdisjoint]
  rfl

theorem agree_reads (takes : Values → Bool) (bus : TaskBus) (b : Board) (ds : List Delivery)
    (hlarge : (ds.length : Int) ≤ bus.maxMessages) :
    Agree takes bus b ds ↔ ∀ r ∈ VALID_PARTICIPANTS,
      (∀ d ∈ ds.filter (goesTo r), d.handoff.taskRef ≠ "") ∧
      (ds.filter (goesTo r)).map (fun d => ofDelegation d.delegation) =
        (((ds.filter (stores takes)).filter (shown r)).take 100).map (fun d => ofHandoff d.listed) := by
  refine forall₂_congr fun r hr => ?_
  have htable := listed_table (table_holds takes bus.spelling ds) hr
  unfold Bus.delegations
  simp only [recv_files b ds hlarge r, htable]
  constructor
  · rintro ⟨listed, listed', hread, hread', heq⟩
    have htask := task_of_listed hread
    obtain rfl := Except.ok.inj ((listed_files bus.spelling _ htask).symm.trans hread)
    obtain rfl := Except.ok.inj hread'
    rw [List.map_map, List.map_map] at heq
    exact ⟨htask, heq⟩
  · rintro ⟨htask, heq⟩
    refine ⟨_, _, listed_files bus.spelling _ htask, rfl, ?_⟩
    rw [List.map_map, List.map_map]
    exact heq

/-- **When the two transports agree.** -/
theorem transports_agree_iff (takes : Values → Bool) (bus : TaskBus) (b : Board)
    (ds : List Delivery) (hlarge : (ds.length : Int) ≤ bus.maxMessages) :
    Agree takes bus b ds ↔ (∀ d ∈ ds, Carried takes d) ∧ ∀ r ∈ VALID_PARTICIPANTS, Fits r ds := by
  rw [agree_reads takes bus b ds hlarge]
  have hmem : ∀ d ∈ ds, d ∈ ds.filter (goesTo d.handoff.recipient) :=
    fun d hd => List.mem_filter.mpr ⟨hd, beq_self_eq_true _⟩
  have hall : (∀ d ∈ ds, Carried takes d) → ds.filter (stores takes) = ds :=
    fun hcarried => List.filter_eq_self.mpr fun d hd => ((carried_iff d).mp (hcarried d hd)).2.1
  constructor
  · intro hagree
    have hcarried : ∀ d ∈ ds, Carried takes d := by
      intro d hd
      obtain ⟨htask, hviews⟩ := hagree d.handoff.recipient d.recipient_valid
      exact (carried_iff d).mpr ⟨htask d (hmem d hd), (same_of_views hviews).2 d (hmem d hd)⟩
    refine ⟨hcarried, fun r hr => (fits_iff r ds).mpr ?_⟩
    have hsame := (same_of_views (hagree r hr).2).1
    rwa [hall hcarried] at hsame
  · rintro ⟨hcarried, hfits⟩ r hr
    have hcarried' : ∀ d ∈ ds.filter (goesTo r), Carried takes d :=
      fun d hd => hcarried d (List.mem_of_mem_filter hd)
    refine ⟨fun d hd => (hcarried' d hd).1, ?_⟩
    rw [hall hcarried, (fits_iff r ds).mp (hfits r hr)]
    exact List.map_congr_left fun d hd => (view_listed d).mpr (hcarried' d hd).2.1

/-! ## One delegation in the lane `all` -/

def handedTo (recipient : String) : Handoff :=
  ⟨"t1", "dispatch", recipient, .delegated, "fix the flake", none, none, [("prompt", .str "fix it")]⟩

def toCodex : Delivery := ⟨handedTo "codex", none, ⟨"m1", 1, 1⟩, 1, by decide, by decide⟩

def toCursor : Delivery := ⟨handedTo "cursor", none, ⟨"m2", 2, 2⟩, 2, by decide, by decide⟩

def backToCodex : Delivery :=
  ⟨{ handedTo "codex" with sender := "cursor", status := .done }, some "m1", ⟨"m3", 3, 3⟩, 3, by decide, by decide⟩

def toAll : Delivery := ⟨handedTo "all", none, ⟨"m1", 1, 1⟩, 1, by decide, by decide⟩

theorem handovers_agree :
    Agree (fun _ => true) defaultBus Board.empty [toCodex, toCursor, backToCodex] := by
  refine (transports_agree_iff (fun _ => true) defaultBus Board.empty _ (by decide)).mpr
    ⟨?_, fun r _ => ⟨?_, afterFirst_of_none ?_⟩⟩
  · simp [Carried, toCodex, toCursor, backToCodex, handedTo]
  · exact (List.length_filter_le _ _).trans (by decide)
  · simp [intrudes, toCodex, toCursor, backToCodex, handedTo]

theorem lane_differs : ¬ Agree (fun _ => true) defaultBus Board.empty [toAll] := by
  intro h
  have hviews :=
    ((agree_reads (fun _ => true) defaultBus Board.empty [toAll] (by decide)).mp h "codex" (by decide)).2
  have hlengths := congrArg List.length hviews
  rw [List.length_map, List.length_map] at hlengths
  exact absurd hlengths (by decide +kernel)

end Swarm.Postgres
