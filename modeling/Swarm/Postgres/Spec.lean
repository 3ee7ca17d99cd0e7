import Swarm.Postgres.Code
import Swarm.Postgres.Migration

/-! # What the calls do to the rows -/

namespace Swarm.Postgres

open Swarm.Bus

/-! ## The migration -/

/-- The rows of the table, if it is there. -/
def Database.rows (db : Database) : List Row := (db.table.map (·.rows)).getD []

theorem widen_rows {w : Widening} {t t' : Table} (h : w.widen t = .ok t') : t'.rows = t.rows := by
  unfold Widening.widen Table.addConstraint at h
  split at h
  · split at h
    · obtain rfl := Except.ok.inj h
      rfl
    · cases h
  · cases h

/-- A statement of the migration leaves the rows. -/
def LeavesRows (stmt : Statement) : Prop := ∀ db db', stmt db = .ok db' → db'.rows = db.rows

theorem onTable_rows {f : Table → Except Error Table} {g : List Row → List Row}
    (hf : ∀ t t', f t = .ok t' → t'.rows = g t.rows) {db db' : Database}
    (h : db.onTable f = .ok db') :
    db'.rows = g db.rows := by
  unfold Database.onTable at h
  split at h
  · cases h
  · next t ht =>
    cases hrun : f t with
    | error e => simp [hrun, Except.map] at h
    | ok t' =>
      obtain rfl : { db with table := some t' } = db' := by simpa [hrun, Except.map] using h
      simp [Database.rows, ht, hf t t' hrun]

theorem execute_rows {stmts : List Statement} (h : ∀ stmt ∈ stmts, LeavesRows stmt)
    (db : Database) :
    (execute stmts db).2.rows = db.rows := by
  induction stmts generalizing db with
  | nil => rfl
  | cons stmt rest ih =>
    obtain ⟨hstmt, hrest⟩ := List.forall_mem_cons.mp h
    unfold execute
    split
    · rfl
    · next db' hdb' => rw [ih hrest db', hstmt db db' hdb']

theorem ensureSchema_rows (sp : Spelling) (db : Database) :
    (ensureSchema sp db).2.rows = db.rows := by
  rw [ensureSchema_eq, execute_rows]
  · cases htable : db.table <;> simp [Database.rows, htable, Table.empty]
  · intro stmt hstmt
    rcases List.mem_append.mp hstmt with hstmt | hstmt
    · obtain ⟨w, -, rfl⟩ := List.mem_map.mp hstmt
      exact fun db db' => onTable_rows (g := id) fun _ _ => widen_rows
    · simp only [List.mem_cons, List.not_mem_nil, or_false] at hstmt
      rcases hstmt with rfl | rfl | rfl
      all_goals
        intro db db' h
        obtain rfl := Except.ok.inj h
        rfl

theorem maybeMigrate_rows (bus : PostgresBus) (db : Database) :
    (maybeMigrate bus db).2.2.rows = db.rows := by
  have hrows := ensureSchema_rows bus.spelling db
  unfold maybeMigrate
  split
  · split
    · next heq => rw [heq] at hrows; exact hrows
    · next heq => rw [heq] at hrows; exact hrows
  · rfl

/-! ## The calls -/

theorem insert_constraints (v : Values) (now : ℚ) (t : Table) :
    (t.insert v now).2.constraints = t.constraints := by
  unfold Table.insert
  split <;> rfl

theorem insert_spec (v : Values) (now : ℚ) (t : Table) :
    (t.Accepts (v.row t.nextId now) ∧ ∃ t', t.insert v now = (.ok t.nextId, t') ∧
      t'.rows = t.rows ++ [v.row t.nextId now]) ∨
      ¬ t.Accepts (v.row t.nextId now) ∧ ∃ e t', t.insert v now = (.error e, t') ∧
        t'.rows = t.rows := by
  unfold Table.insert
  split
  · next c hc =>
    refine .inr ⟨fun haccepts => ?_, _, _, rfl, rfl⟩
    have hrefused := List.find?_some hc
    rw [haccepts c (List.mem_of_find?_eq_some hc)] at hrefused
    cases hrefused
  · next hnone =>
      exact .inl ⟨fun c hc => by simpa using List.find?_eq_none.mp hnone c hc, _, rfl, rfl⟩

theorem send_spec (takes : Values → Bool) (bus : PostgresBus) (v : Values) (now : ℚ)
    (db : Database) :
    (∃ id bus' db', send takes bus v now db = (.ok id, bus', db') ∧
      db'.rows = db.rows ++ [({ v with recipient := lane v.recipient } : Values).row id now]) ∨
      ∃ e bus' db', send takes bus v now db = (.error e, bus', db') ∧ db'.rows = db.rows := by
  have hrows := maybeMigrate_rows bus db
  -- The checks of the arguments come first, then the migration, then the INSERT.
  unfold send
  split
  · exact .inr ⟨_, _, _, rfl, rfl⟩
  split
  · exact .inr ⟨_, _, _, rfl, rfl⟩
  split
  · next heq =>
    rw [heq] at hrows
    exact .inr ⟨_, _, _, rfl, hrows⟩
  · next bus' db' heq =>
    rw [heq] at hrows
    split
    · exact .inr ⟨_, _, _, rfl, hrows⟩
    · next t ht =>
      simp only
      split
      · exact .inr ⟨_, _, _, rfl, hrows⟩
      · have ht' : db'.rows = t.rows := by simp [Database.rows, ht]
        rcases insert_spec { v with recipient := lane v.recipient } now t with
          ⟨-, t', hins, hnew⟩ | ⟨-, e, t', hins, hold⟩
        · rw [hins]
          refine .inl ⟨_, _, _, rfl, ?_⟩
          rw [← hrows, ht', ← hnew]
          rfl
        · rw [hins]
          refine .inr ⟨_, _, _, rfl, ?_⟩
          rw [← hrows, ht', ← hold]
          rfl

theorem poll_rows (bus : PostgresBus) (a : PollArgs) (db : Database) :
    (poll bus a db).2.2.rows = db.rows := by
  have hrows := maybeMigrate_rows bus db
  unfold poll
  split
  · rfl
  split
  · next heq => rw [heq] at hrows; exact hrows
  · next heq =>
    rw [heq] at hrows
    split
    · exact hrows
    · split <;> exact hrows

theorem table_markRead_rows {ids : List Nat} {now : ℚ} {t t' : Table}
    (h : t.markRead ids now = .ok t') :
    t'.rows = t.rows.map (Row.marked ids now) := by
  unfold Table.markRead at h
  split at h
  · cases h
  · obtain rfl := Except.ok.inj h
    rfl

theorem markRead_spec (bus : PostgresBus) (ids : List Nat) (now : ℚ) (db : Database) :
    (∃ bus' db', markRead bus ids now db = (.ok (), bus', db') ∧
      db'.rows = db.rows.map (Row.marked ids now)) ∨
      ∃ e bus' db', markRead bus ids now db = (.error e, bus', db') ∧ db'.rows = db.rows := by
  have hrows := maybeMigrate_rows bus db
  unfold markRead
  split
  · next hnil =>
    have hsame : Row.marked [] now = id := by
      funext r
      simp [Row.marked]
    exact .inl ⟨_, _, rfl, by rw [hnil, hsame, List.map_id]⟩
  split
  · next heq =>
    rw [heq] at hrows
    exact .inr ⟨_, _, _, rfl, hrows⟩
  · next bus' db' heq =>
    rw [heq] at hrows
    split
    · exact .inr ⟨_, _, _, rfl, hrows⟩
    · next db'' hmarked =>
      refine .inl ⟨_, _, rfl, ?_⟩
      rw [← hrows]
      exact onTable_rows (fun _ _ => table_markRead_rows) hmarked

end Swarm.Postgres
