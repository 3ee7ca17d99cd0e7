import Mathlib.Data.Fintype.EquivFin
import Swarm.Lib.Runs
import Swarm.Postgres.Spec

/-!
# Broadcasts, and who has read them

All readers of a broadcast share its row, and the row has one status.
-/

namespace Swarm.Postgres

open Swarm.Bus Swarm.Lib

variable {takes : Values → Bool}

/-! ## The calls of several clients -/

/-- `sent` has the ids of the broadcasts that were sent, and `marks` who has marked which id. -/
structure Mailbox where
  db : Database
  sent : List Nat
  marks : List (String × Nat)

/-- A call of some client. -/
inductive Label
  | send (bus : PostgresBus) (v : Values) (now : ℚ)
  | poll (bus : PostgresBus) (a : PollArgs)
  | mark (bus : PostgresBus) (reader : String) (ids : List Nat) (now : ℚ)

/-- A call and what it leaves to remember: the broadcasts that were sent, and who marked what. -/
def next (takes : Values → Bool) (s : Mailbox) : Label → Mailbox
  | .send bus v now =>
    match send takes bus v now s.db with
    | (.ok id, _, db) =>
      { s with db := db, sent := if lane v.recipient = "all" then id :: s.sent else s.sent }
    | (.error _, _, db) => { s with db := db }
  | .poll bus a => { s with db := (poll bus a s.db).2.2 }
  | .mark bus reader ids now =>
    match markRead bus ids now s.db with
    | (.ok (), _, db) => { s with db := db, marks := ids.map (reader, ·) ++ s.marks }
    | (.error _, _, db) => { s with db := db }

/-- Every call leaves a state, also one that raises. -/
def step (takes : Values → Bool) (l : Label) (s : Mailbox) : Option Mailbox := some (next takes s l)

def start (db : Database) : Mailbox := ⟨db, [], []⟩

/-! ## What a reader sees -/

/-- A name that `poll` accepts. -/
def Pollable (reader : String) : Prop := reader ∈ VALID_PARTICIPANTS ∨ startsWildcard reader = true

/-- A client whose migration, if it has one to run, goes through finds the message, with a limit
that is large enough. -/
def Polls (db : Database) (reader : String) (id : Nat) : Prop :=
  ∃ enough : Int, ∀ (bus : PostgresBus) (limit : Int), (maybeMigrate bus db).1 = .ok () → enough ≤ limit →
    ∃ rows, (poll bus ⟨reader, true, none, [], limit⟩ db).1 = .ok rows ∧ ∃ r ∈ rows, r.id = id

/-- Each broadcast is polled by every reader that has not marked it. -/
def Visible (s : Mailbox) : Prop :=
  ∀ id ∈ s.sent, ∀ reader, Pollable reader → (reader, id) ∉ s.marks → Polls s.db reader id

/-- No broadcast is marked by a call that returns. -/
def Spares (s : Mailbox) : Label → Prop
  | .mark bus _ ids now => (markRead bus ids now s.db).1 = .ok () → ∀ id ∈ ids, id ∉ s.sent
  | _ => True

/-! ## Unread broadcasts -/

/-- The broadcast is there, and unread. -/
def Unread (db : Database) (id : Nat) : Prop :=
  ∃ r ∈ db.rows, r.id = id ∧ r.recipient = "all" ∧ r.status = "unread"

theorem polls_of_unread {db : Database} {id : Nat} {reader : String} (h : Unread db id)
    (hreader : Pollable reader) : Polls db reader id := by
  obtain ⟨r, hr, hid, hall, hunread⟩ := h
  refine ⟨db.rows.length, fun bus limit hmigrated hlimit => ?_⟩
  have hkept := maybeMigrate_rows bus db
  have hvalid : ¬ (reader ∉ VALID_PARTICIPANTS && !startsWildcard reader) = true := by
    rcases hreader with hreader | hreader <;> simp [hreader]
  unfold poll
  rw [if_neg hvalid]
  rcases hmigrate : maybeMigrate bus db with ⟨result, bus', db'⟩
  rw [hmigrate] at hmigrated hkept
  obtain rfl : result = .ok () := hmigrated
  cases htable : db'.table with
  | none =>
    have hnone : db'.rows = [] := by simp [Database.rows, htable]
    rw [← hkept, hnone] at hr
    cases hr
  | some t =>
    have hrows : t.rows = db.rows := by rw [← hkept]; simp [Database.rows, htable]
    have hselected : r ∈ t.rows.filter (PollArgs.selects ⟨reader, true, none, [], limit⟩) := by
      rw [hrows]
      exact List.mem_filter.mpr ⟨hr, by simp [PollArgs.selects, hall, hunread]⟩
    have hlength : (t.rows.filter (PollArgs.selects ⟨reader, true, none, [], limit⟩)).length ≤ limit.toNat := by
      have hle := List.length_filter_le (PollArgs.selects ⟨reader, true, none, [], limit⟩) t.rows
      rw [hrows] at hle ⊢
      omega
    refine ⟨_, ?_, r, hselected, hid⟩
    dsimp only
    rw [htable]
    dsimp only
    rw [if_neg (by omega), List.take_of_length_le hlength]

theorem unread_of_polls {db : Database} {id : Nat} {reader : String} (h : Polls db reader id) :
    ∃ r ∈ db.rows, r.id = id ∧ r.status = "unread" := by
  obtain ⟨enough, hpolls⟩ := h
  obtain ⟨rows, hok, r, hr, hid⟩ := hpolls ⟨plainSpelling, true, true⟩ enough rfl le_rfl
  unfold poll at hok
  split at hok
  · cases hok
  simp only [maybeMigrate, Bool.not_true, Bool.and_false, Bool.false_eq_true, if_false] at hok
  split at hok
  · cases hok
  · next t ht =>
    split at hok
    · cases hok
    · obtain rfl := Except.ok.inj hok
      obtain ⟨hmem, hselected⟩ := List.mem_filter.mp (List.mem_of_mem_take hr)
      refine ⟨r, by simpa [Database.rows, ht] using hmem, hid, ?_⟩
      simp only [PollArgs.selects, Bool.not_true, Bool.false_or, Bool.and_eq_true, beq_iff_eq] at hselected
      exact hselected.1.1.2

/-- Each broadcast has an unread row. -/
def Shared (s : Mailbox) : Prop := ∀ id ∈ s.sent, Unread s.db id

/-- Each broadcast has a row of all. -/
def Kept (s : Mailbox) : Prop := ∀ id ∈ s.sent, ∃ r ∈ s.db.rows, r.id = id ∧ r.recipient = "all"

theorem rows_unique {db : Database} {r r' : Row} (hr : r ∈ db.rows) (hr' : r' ∈ db.rows)
    (hid : r.id = r'.id) :
    r = r' := by
  cases htable : db.table with
  | none => simp [Database.rows, htable] at hr
  | some t =>
    have hrows : db.rows = t.rows := by simp [Database.rows, htable]
    rw [hrows] at hr hr'
    by_contra hne
    obtain ⟨i, rfl⟩ := List.mem_iff_get.mp hr
    obtain ⟨j, rfl⟩ := List.mem_iff_get.mp hr'
    have hlt := List.pairwise_iff_get.mp t.byId
    rcases lt_trichotomy i j with h | h | h
    · exact absurd hid (hlt i j h).ne
    · exact hne (h ▸ rfl)
    · exact absurd hid (hlt j i h).ne'

theorem exists_unmarked (s : Mailbox) (id : Nat) :
    ∃ reader, Pollable reader ∧ (reader, id) ∉ s.marks := by
  -- There are more participants `agent:...` than marks.
  let prefixLength := WILDCARD_PREFIX.toList.length
  obtain ⟨suffix, hnew⟩ := Infinite.exists_notMem_finset
    (s.marks.map fun mark => String.ofList (mark.1.toList.drop prefixLength)).toFinset
  refine ⟨WILDCARD_PREFIX ++ suffix, .inr (by simp [startsWildcard]), fun hmem => hnew ?_⟩
  rw [List.mem_toFinset]
  exact List.mem_map.mpr ⟨_, hmem, by simp [prefixLength]⟩

theorem visible_iff_shared {s : Mailbox} (hkept : Kept s) : Visible s ↔ Shared s := by
  constructor
  · intro hvisible id hid
    obtain ⟨reader, hpollable, hunmarked⟩ := exists_unmarked s id
    obtain ⟨r, hr, hrid, hunread⟩ := unread_of_polls (hvisible id hid reader hpollable hunmarked)
    obtain ⟨r', hr', hrid', hall⟩ := hkept id hid
    obtain rfl := rows_unique hr hr' (hrid.trans hrid'.symm)
    exact ⟨r, hr, hrid, hall, hunread⟩
  · exact fun hshared id hid _ hreader _ => polls_of_unread (hshared id hid) hreader

/-! ## Each call -/

theorem next_kept {s : Mailbox} (h : Kept s) (l : Label) : Kept (next takes s l) := by
  unfold Kept at h ⊢
  cases l with
  | send bus v now =>
    rcases send_spec takes bus v now s.db with ⟨new, bus', db', hsend, hrows⟩ | ⟨e, bus', db', hsend, hrows⟩
    · have hold : ∀ id ∈ s.sent, ∃ r ∈ db'.rows, r.id = id ∧ r.recipient = "all" := by
        intro id hid
        obtain ⟨r, hr, hrid⟩ := h id hid
        exact ⟨r, by rw [hrows]; exact List.mem_append_left _ hr, hrid⟩
      simp only [next, hsend]
      split
      · next hall =>
        rintro id (- | ⟨-, hid⟩)
        · exact ⟨_, by rw [hrows]; exact List.mem_append_right _ (List.mem_singleton_self _), rfl, hall⟩
        · exact hold id (by assumption)
      · exact hold
    · simp only [next, hsend, hrows]
      exact h
  | poll bus a =>
    simp only [next, poll_rows]
    exact h
  | mark bus reader ids now =>
    rcases markRead_spec bus ids now s.db with ⟨bus', db', hmark, hrows⟩ | ⟨e, bus', db', hmark, hrows⟩
    · simp only [next, hmark, hrows]
      intro id hid
      obtain ⟨r, hr, hrid, hall⟩ := h id hid
      exact ⟨r.marked ids now, List.mem_map_of_mem hr, by rw [marked_id, hrid], by rw [marked_recipient, hall]⟩
    · simp only [next, hmark, hrows]
      exact h

theorem marked_not_unread {db db' : Database} {ids : List Nat} {now : ℚ} {id : Nat}
    (hrows : db'.rows = db.rows.map (Row.marked ids now)) (hid : id ∈ ids) : ¬ Unread db' id := by
  rintro ⟨r', hr', hrid, -, hunread⟩
  rw [hrows] at hr'
  obtain ⟨r, -, rfl⟩ := List.mem_map.mp hr'
  rw [marked_id] at hrid
  unfold Row.marked at hunread
  split at hunread
  · simp [Row.read] at hunread
  · next hnot =>
    simp [hrid, hid, hunread] at hnot

/-- The broadcasts stay unread exactly when the call spares them. -/
theorem next_shared_iff {s : Mailbox} {l : Label} (hgood : Shared s) :
    Shared (next takes s l) ↔ Spares s l := by
  cases l with
  | send bus v now =>
    refine iff_of_true ?_ trivial
    unfold Shared at hgood ⊢
    rcases send_spec takes bus v now s.db with ⟨new, bus', db', hsend, hrows⟩ | ⟨e, bus', db', hsend, hrows⟩
    · -- A row that is sent joins the others, and no old one is touched.
      have hold : ∀ id ∈ s.sent, Unread db' id := by
        intro id hid
        obtain ⟨r, hr, hunread⟩ := hgood id hid
        exact ⟨r, by rw [hrows]; exact List.mem_append_left _ hr, hunread⟩
      simp only [next, hsend]
      split
      · next hall =>
        rintro id (- | ⟨-, hid⟩)
        · exact ⟨_, by rw [hrows]; exact List.mem_append_right _ (List.mem_singleton_self _), rfl, hall, rfl⟩
        · exact hold id (by assumption)
      · exact hold
    · simp only [next, hsend, Unread, hrows]
      exact hgood
  | poll bus a =>
    refine iff_of_true ?_ trivial
    simp only [Shared, next, Unread, poll_rows]
    exact hgood
  | mark bus reader ids now =>
    rcases markRead_spec bus ids now s.db with ⟨bus', db', hmark, hrows⟩ | ⟨e, bus', db', hmark, hrows⟩
    · simp only [Shared, Spares, next, hmark, true_implies]
      constructor
      · exact fun hshared id hmem hid => marked_not_unread hrows hmem (hshared id hid)
      · intro hspares id hid
        obtain ⟨r, hr, hrid, hunread⟩ := hgood id hid
        -- The ids of the call name only rows that are not asked for.
        have hother : r.marked ids now = r := by
          have hnot : r.id ∉ ids := fun hmem => hspares r.id hmem (hrid ▸ hid)
          simp [Row.marked, hnot]
        exact ⟨r, by rw [hrows]; exact List.mem_map.mpr ⟨r, hr, hother⟩, hrid, hunread⟩
    · simp only [Shared, Spares, next, hmark, Unread, hrows, reduceCtorEq, false_implies, iff_true]
      exact hgood

/-- **When every broadcast stays visible.** -/
theorem visible_iff (takes : Values → Bool) (db : Database) (labels : List Label) :
    (∀ taken ∈ path (step takes) (start db) labels, Visible taken.after) ↔
      ∀ taken ∈ path (step takes) (start db) labels, Spares taken.before taken.label := by
  have hkept : ∀ s l s', Kept s → step takes l s = some s' → Kept s' :=
    fun s l s' h hnext => Option.some.inj hnext ▸ next_kept h l
  refine path_good_iff hkept (fun s l s' h hvisible hnext => ?_)
    (start db) labels (fun id hid => absurd hid List.not_mem_nil)
    fun id hid => absurd hid List.not_mem_nil
  obtain rfl := Option.some.inj hnext
  rw [visible_iff_shared (next_kept h l), next_shared_iff ((visible_iff_shared h).mp hvisible)]

/-! ## Two readers -/

def client : PostgresBus := ⟨plainSpelling, false, false⟩

/-- A table without checks, which no client migrates. -/
def plainDatabase : Database := ⟨some .empty, [], false, false⟩

def announce : Label :=
  .send client ⟨"dispatch", "*", "work_started", "the release is frozen", none, none, none, [], none⟩ 0

def announceThenMark : List Label := [announce, .mark client "codex" [1] 1]

/-- A message to one reader, which the reader marks. -/
def announceAndDelegate : List Label :=
  [announce, .send client ⟨"dispatch", "codex", "work_started", "t1 is yours", some "t1", none, none, [], none⟩ 1,
    .poll client ⟨"codex", true, none, [], 100⟩, .mark client "codex" [2] 2]

def marksOf : Label → List Nat
  | .mark _ _ ids _ => ids
  | _ => []

theorem announcement_visible :
    ((final (step fun _ => true) (start plainDatabase) announceAndDelegate).db.rows.map (·.status) =
      ["unread", "read"]) ∧
      ∀ taken ∈ path (step fun _ => true) (start plainDatabase) announceAndDelegate,
        Visible taken.after := by
  refine ⟨by decide +kernel, (visible_iff (fun _ => true) plainDatabase announceAndDelegate).mpr
    fun taken htaken => ?_⟩
  have hspares : ∀ taken ∈ path (step fun _ => true) (start plainDatabase) announceAndDelegate,
      ∀ id ∈ marksOf taken.label, id ∉ taken.before.sent := by decide +kernel
  have hmarks := hspares taken htaken
  cases hlabel : taken.label with
  | mark bus reader ids now =>
    rw [hlabel] at hmarks
    exact fun _ => hmarks
  | _ => trivial

theorem marked_hidden :
    ¬ ∀ taken ∈ path (step fun _ => true) (start plainDatabase) announceThenMark,
      Visible taken.after := by
  intro h
  let announced := next (fun _ => true) (start plainDatabase) announce
  let mark : Label := .mark client "codex" [1] 1
  let s := next (fun _ => true) announced mark
  have hvisible : Visible s := h ⟨announced, mark, s⟩ (List.mem_cons_of_mem _ List.mem_cons_self)
  have hsent : 1 ∈ s.sent := by decide +kernel
  have hunmarked : ("cursor", 1) ∉ s.marks := by decide +kernel
  have hread : ∀ r ∈ s.db.rows, r.status = "read" := by decide +kernel
  obtain ⟨r, hr, -, hunread⟩ :=
    unread_of_polls (hvisible 1 hsent "cursor" (.inl (by decide)) hunmarked)
  exact absurd (hunread.symm.trans (hread r hr)) (by decide)

end Swarm.Postgres
