import Mathlib.Data.List.Sort
import Swarm.Lib.Assoc
import Swarm.Lib.Mailboxes
import Swarm.Messaging
import Swarm.Python

/-!
# The inbox files of a bus, as `messaging.py` keeps them

One caller at a time. A file is there from the first message or the first drain on, and the files
that are there are those a broadcast reaches. The file system takes every name and keeps what is
written.
-/

namespace Swarm.Inboxes

open Swarm.Lib

/-! ## Messages -/

abbrev Dict := List (String × Json)

/-- The dataclass takes any value for a field. -/
structure Message where
  id : Json
  ts : Json
  sender : Json
  recipient : Json
  kind : Json
  body : Json
  inReplyTo : Json

/-- What `uuid4().hex` and `time.time()` give for a message. -/
structure Fresh where
  id : Json
  ts : Json

namespace Message

/-- `to_dict` -/
def toDict (m : Message) : Dict :=
  [("id", m.id), ("ts", m.ts), ("sender", m.sender), ("recipient", m.recipient), ("kind", m.kind),
    ("body", m.body), ("in_reply_to", m.inReplyTo)]

def fields : List String := ["id", "ts", "sender", "recipient", "kind", "body", "in_reply_to"]

/-- `cls(**d)` -/
def fromDict (fresh : Fresh) (d : Dict) : Except PyError Message :=
  match d.find? fun kv => kv.1 ∉ fields with
  | some kv =>
    .error (.typeError ("Message.__init__() got an unexpected keyword argument '" ++ kv.1 ++ "'"))
  | none =>
    .ok {
      id := (d.lookup "id").getD fresh.id
      ts := (d.lookup "ts").getD fresh.ts
      sender := (d.lookup "sender").getD (.str "")
      recipient := (d.lookup "recipient").getD (.str "")
      kind := (d.lookup "kind").getD (.str "note")
      body := (d.lookup "body").getD (.obj [])
      inReplyTo := (d.lookup "in_reply_to").getD .null }

@[simp] theorem fromDict_toDict (fresh : Fresh) (m : Message) :
    fromDict fresh m.toDict = .ok m := by
  simp [fromDict, toDict, fields, List.lookup_cons]

end Message

/-! ## Files -/

/-- The directory: the text of each file. -/
abbrev Files := List (String × Text)

def path (recipient : String) : String := recipient ++ ".json"

/-- `name.rfind(c)`, with `none` for -1. -/
def rfind (c : Char) (name : List Char) : Option Nat :=
  (name.reverse.findIdx? (· == c)).map fun i => name.length - 1 - i

/-- `Path(name).stem` -/
def stem (name : String) : String :=
  match rfind '.' name.toList with
  | none => name
  | some i => if 0 < i ∧ i < name.toList.length - 1 then String.ofList (name.toList.take i) else name

/-- `sorted(root.glob("*.json"))` -/
def glob (files : Files) : List String :=
  ((files.map (·.1)).filter fun name => ".json".toList.isSuffixOf name.toList).insertionSort (· ≤ ·)

/-- What `json.loads` makes of the text of an inbox. -/
def load : Option Text → Messaging.File Dict
  | none => .missing
  | some (.json (.arr items)) => .messages (items.filterMap Json.dict?)
  | some _ => .unreadable

/-- `_read_raw`. -/
def readRaw (files : Files) (recipient : String) : List Dict :=
  (load (files.lookup (path recipient))).readRaw

def dumps (dicts : List Dict) : Text := .json (.arr (dicts.map .obj))

/-- `_append`: the bound is applied at every write. -/
def append (maxMessages : Int) (recipient : String) (message : Message) (files : Files) : Files :=
  assocSet files (path recipient)
    (dumps (Messaging.bounded maxMessages (readRaw files recipient ++ [message.toDict])))

/-- `fresh` has what `from_dict` mints for the item at a place, where the item has no id or time. -/
def snapshot (fresh : Nat → Fresh) (recipient : String) (files : Files) :
    Except PyError (List Message) :=
  (readRaw files recipient).zipIdx.mapM fun (d, i) => Message.fromDict (fresh i) d

/-! ## The bus -/

def BROADCAST_RECIPIENT : String := "*"

structure SendArgs where
  sender : String
  recipient : String
  kind : String
  body : Option Dict
  inReplyTo : Option String

def SendArgs.message (a : SendArgs) (fresh : Fresh) : Message where
  id := fresh.id
  ts := fresh.ts
  sender := .str a.sender
  recipient := .str a.recipient
  kind := .str a.kind
  body := .obj (a.body.getD [])
  inReplyTo := (a.inReplyTo.map .str).getD .null

/-- `send` to one inbox, or to every inbox that there is. -/
def send (maxMessages : Int) (a : SendArgs) (fresh : Fresh) (files : Files) : Message × Files :=
  let msg := a.message fresh
  if a.recipient = BROADCAST_RECIPIENT then
    (msg, (glob files).foldl (fun files name => append maxMessages (stem name) msg files) files)
  else (msg, append maxMessages a.recipient msg files)

/-- `recv` lists and takes nothing out. -/
def recv (fresh : Nat → Fresh) (recipient : String) (files : Files) :
    Except PyError (List Message) :=
  snapshot fresh recipient files

/-- An error of the read leaves the file. -/
def drain (fresh : Nat → Fresh) (recipient : String) (files : Files) :
    Except PyError (List Message) × Files :=
  match snapshot fresh recipient files with
  | .error e => (.error e, files)
  | .ok msgs => (.ok msgs, assocSet files (path recipient) (.json (.arr [])))

/-! ## Names -/

@[simp] theorem toList_path (r : String) :
    (path r).toList = r.toList ++ ['.', 'j', 's', 'o', 'n'] := by
  rw [path, String.toList_append]
  rfl

theorem rfind_path (r : String) : rfind '.' (path r).toList = some r.toList.length := by
  simp [rfind, List.findIdx?_cons]

theorem stem_path {r : String} (hr : r ≠ "") : stem (path r) = r := by
  have hlong : 0 < r.toList.length := by
    rw [List.length_pos_iff]
    exact fun hnil => hr (String.toList_injective (by rw [hnil]; rfl))
  have hbound : 0 < r.toList.length ∧ r.toList.length < (path r).toList.length - 1 := by
    refine ⟨hlong, ?_⟩
    rw [toList_path, List.length_append]
    simp
  simp only [stem, rfind_path]
  rw [if_pos hbound, toList_path, List.take_left, String.ofList_toList]

theorem path_injective : Function.Injective path := fun r r' h => by
  have hlist := congrArg String.toList h
  rw [toList_path, toList_path] at hlist
  exact String.toList_injective (List.append_cancel_right hlist)

/-! ## What a file holds -/

theorem bounded_map {α β : Type*} (f : α → β) (maxMessages : Int) (xs : List α) :
    Messaging.bounded maxMessages (xs.map f) = (Messaging.bounded maxMessages xs).map f := by
  simp only [Messaging.bounded, Messaging.sliceFrom, List.length_map]
  split
  · rw [List.map_drop]
  · rfl

theorem bounded_eq_rtake {α : Type*} {maxMessages : Int} (hmax : 1 ≤ maxMessages) (xs : List α) :
    Messaging.bounded maxMessages xs = xs.rtake maxMessages.toNat := by
  rw [Messaging.bounded, List.rtake]
  split
  · rw [Messaging.sliceFrom, if_pos (by omega)]
    congr 1
    omega
  · rw [Nat.sub_eq_zero_of_le (by omega), List.drop_zero]

/-- The text of an inbox. -/
def encode (msgs : List Message) : Text := dumps (msgs.map Message.toDict)

theorem readRaw_encode (box : Option (List Message)) :
    (load (box.map encode)).readRaw = (box.getD []).map Message.toDict := by
  cases box with
  | none => rfl
  | some msgs => exact Json.filterMap_dict? _

/-- The files hold the mailboxes, and there are no others. -/
structure Holds (files : Files) (boxes : String → Option (List Message)) : Prop where
  nodup : (files.map (·.1)).Nodup
  names : ∀ name ∈ files.map (·.1), ∃ r, r ≠ "" ∧ path r = name
  lookup : ∀ r, files.lookup (path r) = (boxes r).map encode

theorem holds_nil : Holds [] fun _ => none := ⟨List.nodup_nil, by simp, fun _ => rfl⟩

namespace Holds

variable {files : Files} {boxes : String → Option (List Message)}

theorem readRaw_eq (h : Holds files boxes) (r : String) :
    readRaw files r = ((boxes r).getD []).map Message.toDict := by
  rw [readRaw, h.lookup, readRaw_encode]

theorem mem_names_iff (h : Holds files boxes) (r : String) :
    path r ∈ files.map (·.1) ↔ (boxes r).isSome := by
  rw [← lookup_isSome_iff, h.lookup, Option.isSome_map]

theorem write (h : Holds files boxes) {r : String} (hr : r ≠ "") (msgs : List Message) :
    Holds (assocSet files (path r) (encode msgs)) (Function.update boxes r (some msgs)) where
  nodup := assocSet_nodup h.nodup _ _
  names name hname := by
    rw [assocSet_keys] at hname
    split at hname
    · exact h.names name hname
    · rcases List.mem_append.mp hname with hold | hnew
      · exact h.names name hold
      · exact ⟨r, hr, (List.mem_singleton.mp hnew).symm⟩
  lookup r' := by
    rw [lookup_assocSet, Function.update_apply]
    by_cases heq : r' = r
    · rw [if_pos (congrArg path heq), if_pos heq, Option.map_some]
    · rw [if_neg fun hpath => heq (path_injective hpath), if_neg heq, h.lookup]

end Holds

/-! ## One operation -/

theorem append_holds {maxMessages : Int} (hmax : 1 ≤ maxMessages) {files : Files}
    {boxes : String → Option (List Message)} (h : Holds files boxes) {r : String} (hr : r ≠ "")
    (m : Message) :
    Holds (append maxMessages r m files) (deliverMail maxMessages.toNat boxes (.send r m)) := by
  have hread : readRaw files r ++ [m.toDict] = ((boxes r).getD [] ++ [m]).map Message.toDict := by
    rw [h.readRaw_eq, List.map_append, List.map_singleton]
  rw [append, hread, bounded_map, bounded_eq_rtake hmax, deliverMail_send]
  exact h.write hr _

/-- `append` for each of some recipients. -/
def appendAll (maxMessages : Int) (rs : List String) (m : Message) (files : Files) : Files :=
  rs.foldl (fun files r => append maxMessages r m files) files

theorem appendAll_holds {maxMessages : Int} (hmax : 1 ≤ maxMessages) (m : Message)
    {rs : List String} (hrs : ∀ r ∈ rs, r ≠ "") (hnodup : rs.Nodup) {files : Files}
    {boxes : String → Option (List Message)} (h : Holds files boxes) :
    Holds (appendAll maxMessages rs m files) fun r =>
      if r ∈ rs then some (((boxes r).getD [] ++ [m]).rtake maxMessages.toNat) else boxes r := by
  induction rs generalizing files boxes with
  | nil => simpa [appendAll] using h
  | cons r rest ih =>
    obtain ⟨hr, hrest⟩ := List.forall_mem_cons.mp hrs
    obtain ⟨hnew, hnodup⟩ := List.nodup_cons.mp hnodup
    have hall := ih hrest hnodup (append_holds hmax h hr m)
    have hboxes : (fun r' => if r' ∈ r :: rest then
          some (((boxes r').getD [] ++ [m]).rtake maxMessages.toNat) else boxes r') =
        fun r' => if r' ∈ rest then
          some (((deliverMail maxMessages.toNat boxes (.send r m) r').getD [] ++ [m]).rtake maxMessages.toNat)
          else deliverMail maxMessages.toNat boxes (.send r m) r' := by
      funext r'
      by_cases heq : r = r'
      · subst heq
        simp [hnew, deliverMail]
      · have hne : r' ≠ r := fun h => heq h.symm
        simp [deliverMail, heq, hne]
    rw [hboxes]
    exact hall

namespace Holds

variable {files : Files} {boxes : String → Option (List Message)}

theorem glob_perm (h : Holds files boxes) : (glob files).Perm (files.map (·.1)) := by
  have hall : ((files.map (·.1)).filter fun name => ".json".toList.isSuffixOf name.toList) = files.map (·.1) := by
    refine List.filter_eq_self.mpr fun name hname => ?_
    obtain ⟨r, -, rfl⟩ := h.names name hname
    rw [List.isSuffixOf_iff_suffix, toList_path]
    exact List.suffix_append _ _
  rw [glob, hall]
  exact List.perm_insertionSort _ _

theorem recipients_ne (h : Holds files boxes) : ∀ r ∈ (glob files).map stem, r ≠ "" := by
  intro r hmem
  obtain ⟨name, hname, rfl⟩ := List.mem_map.mp hmem
  obtain ⟨r, hr, rfl⟩ := h.names name (h.glob_perm.mem_iff.mp hname)
  rwa [stem_path hr]

theorem recipients_nodup (h : Holds files boxes) : ((glob files).map stem).Nodup := by
  refine List.Nodup.map_on (fun name hname name' hname' heq => ?_) (h.glob_perm.nodup_iff.mpr h.nodup)
  obtain ⟨r, hr, rfl⟩ := h.names name (h.glob_perm.mem_iff.mp hname)
  obtain ⟨r', hr', rfl⟩ := h.names name' (h.glob_perm.mem_iff.mp hname')
  rw [stem_path hr, stem_path hr'] at heq
  rw [heq]

theorem mem_recipients_iff (h : Holds files boxes) (r : String) :
    r ∈ (glob files).map stem ↔ (boxes r).isSome := by
  rw [← h.mem_names_iff, List.mem_map]
  constructor
  · rintro ⟨name, hname, rfl⟩
    rw [h.glob_perm.mem_iff] at hname
    obtain ⟨r, hr, rfl⟩ := h.names name hname
    rwa [stem_path hr]
  · intro hname
    obtain ⟨r', hr', hpath⟩ := h.names (path r) hname
    obtain rfl := path_injective hpath
    exact ⟨path r', h.glob_perm.mem_iff.mpr hname, stem_path hr'⟩

end Holds

theorem broadcast_holds {maxMessages : Int} (hmax : 1 ≤ maxMessages) {files : Files}
    {boxes : String → Option (List Message)} (h : Holds files boxes) (m : Message) :
    Holds (appendAll maxMessages ((glob files).map stem) m files)
      (deliverMail maxMessages.toNat boxes (.broadcast m)) := by
  have hall := appendAll_holds hmax m h.recipients_ne h.recipients_nodup h
  have hboxes : deliverMail maxMessages.toNat boxes (.broadcast m) = fun r =>
      if r ∈ (glob files).map stem then some (((boxes r).getD [] ++ [m]).rtake maxMessages.toNat) else boxes r := by
    funext r
    simp only [h.mem_recipients_iff r, deliverMail]
    cases boxes r with
    | none => rfl
    | some msgs => rfl
  rw [hboxes]
  exact hall

theorem mapM_fromDict (fresh : Nat → Fresh) (msgs : List Message) (start : Nat) :
    ((msgs.map Message.toDict).zipIdx start).mapM (fun (d, i) => Message.fromDict (fresh i) d) =
      .ok msgs := by
  induction msgs generalizing start with
  | nil => rfl
  | cons m rest ih =>
    rw [List.map_cons, List.zipIdx_cons, List.mapM_cons, ih]
    simp only [Message.fromDict_toDict]
    rfl

theorem recv_eq {files : Files} {boxes : String → Option (List Message)} (h : Holds files boxes)
    (fresh : Nat → Fresh) (r : String) : recv fresh r files = .ok ((boxes r).getD []) := by
  rw [recv, snapshot, h.readRaw_eq]
  exact mapM_fromDict fresh _ 0

theorem drain_eq {files : Files} {boxes : String → Option (List Message)} (h : Holds files boxes)
    (fresh : Nat → Fresh) (r : String) :
    drain fresh r files = (.ok ((boxes r).getD []), assocSet files (path r) (encode [])) := by
  have hread : snapshot fresh r files = .ok ((boxes r).getD []) := recv_eq h fresh r
  rw [drain, hread]
  rfl

/-! ## Any sequence of operations -/

inductive Op
  | send (a : SendArgs) (fresh : Fresh)
  | drain (recipient : String) (fresh : Nat → Fresh)

namespace Op

def recipient : Op → String
  | .send a _ => a.recipient
  | .drain r _ => r

def apply (maxMessages : Int) (op : Op) (files : Files) : Files :=
  match op with
  | .send a fresh => (Inboxes.send maxMessages a fresh files).2
  | .drain r fresh => (Inboxes.drain fresh r files).2

def mail : Op → Mail String Message
  | .send a fresh =>
    if a.recipient = BROADCAST_RECIPIENT then .broadcast (a.message fresh) else .send a.recipient (a.message fresh)
  | .drain r _ => .drain r

end Op

/-- A recipient: no path separator, and not the broadcast. -/
structure Name (r : String) : Prop where
  nonempty : r ≠ ""
  flat : '/' ∉ r.toList
  literal : r ≠ BROADCAST_RECIPIENT

/-- A send may be a broadcast. -/
def Op.Named : Op → Prop
  | .send a _ => a.recipient = BROADCAST_RECIPIENT ∨ Name a.recipient
  | .drain r _ => Name r

/-- The files after some operations, from an empty directory on. -/
def run (maxMessages : Int) (ops : List Op) : Files :=
  ops.foldl (fun files op => op.apply maxMessages files) []

theorem apply_holds {maxMessages : Int} (hmax : 1 ≤ maxMessages) {files : Files}
    {boxes : String → Option (List Message)} (h : Holds files boxes) {op : Op} (hop : op.Named) :
    Holds (op.apply maxMessages files) (deliverMail maxMessages.toNat boxes op.mail) := by
  cases op with
  | send a fresh =>
    simp only [Op.apply, Op.mail, send]
    split
    · have hfold : (glob files).foldl
            (fun files name => append maxMessages (stem name) (a.message fresh) files) files =
          appendAll maxMessages ((glob files).map stem) (a.message fresh) files := by
        rw [appendAll, List.foldl_map]
      rw [hfold]
      exact broadcast_holds hmax h (a.message fresh)
    · next hone =>
      have hname : Name a.recipient := hop.resolve_left hone
      exact append_holds hmax h hname.nonempty (a.message fresh)
  | drain r fresh =>
    have hname : Name r := hop
    simp only [Op.apply, Op.mail, drain_eq h]
    rw [deliverMail_drain]
    exact h.write hname.nonempty []

theorem run_holds {maxMessages : Int} (hmax : 1 ≤ maxMessages) {ops : List Op}
    (hops : ∀ op ∈ ops, op.Named) :
    Holds (run maxMessages ops) (mailboxes maxMessages.toNat (ops.map Op.mail)) := by
  induction ops using List.reverseRecOn with
  | nil => exact holds_nil
  | append_singleton ops op ih =>
    have hrun : run maxMessages (ops ++ [op]) = op.apply maxMessages (run maxMessages ops) := by
      simp [run]
    rw [hrun, List.map_append, List.map_singleton, mailboxes_snoc]
    exact apply_holds hmax (ih fun op hmem => hops op (List.mem_append_left _ hmem)) (hops op (by simp))

theorem recv_run {maxMessages : Int} (hmax : 1 ≤ maxMessages) {ops : List Op}
    (hops : ∀ op ∈ ops, op.Named) (fresh : Nat → Fresh) (r : String) :
    recv fresh r (run maxMessages ops) =
      .ok (((pending r (ops.map Op.mail)).getD []).rtake maxMessages.toNat) := by
  rw [recv_eq (run_holds hmax hops), mailboxes_eq]
  cases pending r (ops.map Op.mail) with
  | none => simp
  | some msgs => rfl

theorem apply_other {maxMessages : Int} {op : Op} {r : String} (hother : op.recipient ≠ r)
    (hone : op.recipient ≠ BROADCAST_RECIPIENT) (files : Files) :
    (op.apply maxMessages files).lookup (path r) = files.lookup (path r) := by
  have hpath : path r ≠ path op.recipient := fun heq => hother (path_injective heq).symm
  cases op with
  | send a fresh =>
    have hdirected : a.recipient ≠ BROADCAST_RECIPIENT := hone
    simp only [Op.apply, send, if_neg hdirected, append, lookup_assocSet]
    exact if_neg hpath
  | drain r' fresh =>
    simp only [Op.apply, drain]
    split
    · rfl
    · rw [lookup_assocSet]
      exact if_neg hpath

/-- **An inbox has the last messages since its last drain, a drain returns them, and the others
stay.** -/
theorem inbox_eq {maxMessages : Int} (hmax : 1 ≤ maxMessages) {ops : List Op}
    (hops : ∀ op ∈ ops, op.Named) {r : String} (hr : Name r) (fresh : Nat → Fresh) :
    let files := run maxMessages ops
    let inbox := ((pending r (ops.map Op.mail)).getD []).rtake maxMessages.toNat
    recv fresh r files = .ok inbox ∧
      (drain fresh r files).1 = .ok inbox ∧ recv fresh r (drain fresh r files).2 = .ok [] ∧
      ∀ op : Op, op.recipient ≠ r → op.recipient ≠ BROADCAST_RECIPIENT →
        recv fresh r (op.apply maxMessages files) = recv fresh r files := by
  intro files inbox
  have hholds : Holds files (mailboxes maxMessages.toNat (ops.map Op.mail)) := run_holds hmax hops
  have hrecv : recv fresh r files = .ok inbox := recv_run hmax hops fresh r
  refine ⟨hrecv, ?_, ?_, fun op hother hone => ?_⟩
  · rw [drain_eq hholds, ← hrecv, recv_eq hholds]
  · rw [drain_eq hholds, recv_eq (hholds.write hr.nonempty []), Function.update_self]
    rfl
  · simp only [recv, snapshot, readRaw, apply_other hother hone]

/-! ## An inbox that is full -/

def note (recipient : String) (n : Int) : Op :=
  .send ⟨"scout", recipient, "note", some [("n", .int n)], none⟩ ⟨.int n, .float "1.5"⟩

def noted (recipient : String) (n : Int) : Message :=
  ⟨.int n, .float "1.5", .str "scout", .str recipient, .str "note", .obj [("n", .int n)], .null⟩

/-- The first broadcast comes before the file is there, the first message goes when the third
comes. -/
def crowded : List Op := [note "*" 1, note "codex" 2, note "*" 3, note "codex" 4]

/-- The messages have their ids and times, so none is minted. -/
def minted (_ : Nat) : Fresh := ⟨.null, .null⟩

theorem crowded_inbox :
    recv minted "codex" (run 2 crowded) = .ok [noted "*" 3, noted "codex" 4] := by
  have hname : Name "codex" := ⟨by decide, by decide, by decide⟩
  have hops : ∀ op ∈ crowded, op.Named := by
    simp only [crowded, List.forall_mem_cons]
    exact ⟨.inl rfl, .inr hname, .inl rfl, .inr hname, by simp⟩
  have hinbox := (inbox_eq (by decide : (1 : Int) ≤ 2) hops hname minted).1
  simpa [crowded, note, noted, pending, arrive, Op.mail, SendArgs.message,
    BROADCAST_RECIPIENT, List.rtake] using hinbox

end Swarm.Inboxes
