import Swarm.Kanban.Edges
import Swarm.Postgres.Schema

/-!
# What the migration does to a table that is there

The three fixed lists replace the checks that mention their columns. They take no account of what
those checks took.
-/

namespace Swarm.Postgres

open Swarm.Bus Swarm.Kanban

variable {sp : Spelling}

/-! ## A text that LIKE finds -/

theorem infix_append_cons {α : Type*} {p xs ys : List α} {c : α} (hc : c ∉ p)
    (h : p <:+: xs ++ c :: ys) :
    p <:+: xs ∨ p <:+: ys := by
  obtain ⟨pre, post, heq⟩ := h
  rw [List.append_assoc] at heq
  rcases List.append_eq_append_iff.mp heq with ⟨mid, hxs, hmid⟩ | ⟨mid, hpre, hmid⟩
  · rcases List.append_eq_append_iff.mp hmid with ⟨rest, hmid', hrest⟩ | ⟨rest, hp, hrest⟩
    · exact .inl ⟨pre, rest, by rw [hxs, hmid', List.append_assoc]⟩
    · cases rest with
      | nil => exact .inl ⟨pre, [], by simp [hxs, hp]⟩
      | cons d rest =>
        obtain ⟨rfl, -⟩ := List.cons.inj hrest
        exact absurd (by simp [hp]) hc
  · cases mid with
    | nil =>
      cases p with
      | nil => exact .inl List.nil_infix
      | cons d p =>
        obtain ⟨rfl, -⟩ := List.cons.inj hmid
        exact absurd List.mem_cons_self hc
    | cons d mid =>
      obtain ⟨-, rfl⟩ := List.cons.inj hmid
      exact .inr ⟨mid, post, by simp⟩

theorem prefix_of_like {lit pattern text : List Char} (hlit : ∀ c ∈ lit, c ≠ '%' ∧ c ≠ '_')
    (h : like (lit ++ pattern) text = true) : lit <+: text := by
  induction lit generalizing text with
  | nil => exact List.nil_prefix
  | cons c lit ih =>
    obtain ⟨⟨hpercent, hunder⟩, hrest⟩ := List.forall_mem_cons.mp hlit
    unfold like at h
    cases text with
    | nil => simp [hpercent] at h
    | cons d rest =>
      obtain ⟨heq, hlike⟩ : c = d ∧ like (lit ++ pattern) rest = true := by
        simpa [hpercent, hunder] using h
      exact heq ▸ List.cons_prefix_cons.mpr ⟨rfl, ih hrest hlike⟩

theorem infix_of_like {lit pattern text : List Char} (hlit : ∀ c ∈ lit, c ≠ '%' ∧ c ≠ '_')
    (h : like ('%' :: (lit ++ pattern)) text = true) : lit <:+: text := by
  unfold like at h
  obtain ⟨tail, htail, hlike⟩ := List.any_eq_true.mp h
  exact (prefix_of_like hlit hlike).isInfix.trans (List.mem_tails tail text |>.mp htail).isInfix

/-! ## The lists that are installed -/

def element (v : String) : String := quoted v ++ "::text"

theorem element_toList (v : String) :
    (element v).toList = Char.ofNat 39 :: (v.toList ++ Char.ofNat 39 :: "::text".toList) := by
  have hquote : "'".toList = [Char.ofNat 39] := String.toList_ofList
  simp only [element, quoted, String.toList_append, hquote]
  simp

theorem infix_elements {p : List Char} (hquote : Char.ofNat 39 ∉ p) (vs : List String)
    (hvs : vs ≠ []) (head : List Char) (last : String)
    (h : p <:+: head ++ (", ".intercalate (vs.map element) ++ last).toList) :
    p <:+: head ∨ (∃ v ∈ vs, p <:+: v.toList) ∨ p <:+: ("::text" ++ ", ").toList ∨
      p <:+: ("::text" ++ last).toList := by
  induction vs generalizing head with
  | nil => exact absurd rfl hvs
  | cons v rest ih =>
    have hsplit : ∀ more : List Char, p <:+: head ++ ((element v).toList ++ more) →
        p <:+: head ∨ p <:+: v.toList ∨ p <:+: "::text".toList ++ more := by
      intro more hmore
      rw [element_toList, List.cons_append, List.append_assoc, List.cons_append] at hmore
      rcases infix_append_cons hquote hmore with hhead | hafter
      · exact .inl hhead
      · exact .inr (infix_append_cons hquote hafter)
    by_cases hrest : rest = []
    · subst hrest
      rcases hsplit last.toList (by simpa using h) with hhead | hv | hlast
      · exact .inl hhead
      · exact .inr (.inl ⟨v, by simp, hv⟩)
      · exact .inr (.inr (.inr (by simpa using hlast)))
    · rw [List.map_cons, String.intercalate_cons_of_ne_nil (by simpa using hrest), String.append_assoc,
        String.append_assoc, String.toList_append, String.toList_append] at h
      rcases hsplit _ h with hhead | hv | hmore
      · exact .inl hhead
      · exact .inr (.inl ⟨v, by simp, hv⟩)
      · rw [← List.append_assoc, ← String.toList_append] at hmore
        rcases ih hrest _ hmore with hcomma | ⟨v', hv', hin⟩ | hparts
        · exact .inr (.inr (.inl hcomma))
        · exact .inr (.inl ⟨v', List.mem_cons_of_mem v hv', hin⟩)
        · exact .inr (.inr hparts)

theorem infix_definition {p : List Char} (hquote : Char.ofNat 39 ∉ p) (w : Widening)
    (hvs : w.values ≠ []) (h : p <:+: w.constraint.definition.toList) :
    p <:+: ("CHECK ((" ++ w.column.name ++ " = ANY (ARRAY[").toList ∨
      (∃ v ∈ w.values, p <:+: v.toList) ∨
      p <:+: ("::text" ++ ", ").toList ∨ p <:+: ("::text" ++ "])))").toList := by
  have hdef : w.constraint.definition.toList =
      ("CHECK ((" ++ w.column.name ++ " = ANY (ARRAY[").toList ++
        (", ".intercalate (w.values.map element) ++ "])))").toList := by
    rw [← String.toList_append, ← String.append_assoc]
    rfl
  rw [hdef] at h
  exact infix_elements hquote w.values hvs _ _ h

/-! ## The statements -/

theorem widenSql_eq (sp : Spelling) : widenSql sp = .ok widenings := by
  have hquotes : ∀ w ∈ widenings, w.values.find? (·.toList.contains (Char.ofNat 39)) = none := by
    decide +kernel
  have hlist : ∀ w ∈ widenings, (sqlInList sp w.values).map (fun _ => w) = .ok w := by
    intro w hw
    rw [sqlInList, hquotes w hw]
    rfl
  unfold widenings at hlist
  simp only [List.forall_mem_cons] at hlist
  obtain ⟨hsender, hrecipient, htype, -⟩ := hlist
  simp only [widenSql, widenings, List.mapM_cons, List.mapM_nil, hsender, hrecipient, htype]
  rfl

/-- A check that widening the column leaves. -/
def Widening.keeps (w : Widening) (c : Constraint) : Bool :=
  !w.mentioned c && c.conname != w.conname

/-- What widening the columns makes of the checks. -/
def replaced (ws : List Widening) (cs : List Constraint) : List Constraint :=
  cs.filter (fun c => ws.all (·.keeps c)) ++ ws.map (·.constraint)

/-- The rows that the lists take. -/
def Known (r : Row) : Prop :=
  r.sender ∈ SENDER_VALUES ∧ r.recipient ∈ RECIPIENT_VALUES ∧ r.msgType ∈ MSG_TYPE_VALUES

theorem known_iff (r : Row) : Known r ↔ ∀ w ∈ widenings, w.constraint.accepts r = true := by
  simp [Known, widenings, Widening.constraint, Column.get]

theorem keeps_constraint_self (w : Widening) : w.keeps w.constraint = false := by
  simp [Widening.keeps, Widening.constraint]

/-- The start of a column's name, up to a character that LIKE reads otherwise. -/
def stem : Column → List Char
  | .sender => "sender".toList
  | .recipient => "recipient".toList
  | .msgType => "msg".toList

theorem stem_in_definition {w : Widening} {c : Constraint} (h : w.mentioned c = true) :
    stem w.column <:+: c.definition.toList := by
  have hlike := (Bool.and_eq_true_iff.mp h).1
  have hpattern : ∃ rest, ("%" ++ w.column.name ++ "%").toList = '%' :: (stem w.column ++ rest) := by
    rw [String.toList_append, String.toList_append]
    cases w.column with
    | sender | recipient => exact ⟨['%'], by decide +kernel⟩
    | msgType => exact ⟨"_type%".toList, by decide +kernel⟩
  have hplain : (stem w.column).all (fun c => c != '%' && c != '_') = true := by
    cases w.column <;> decide +kernel
  obtain ⟨rest, hrest⟩ := hpattern
  rw [hrest] at hlike
  exact infix_of_like (fun c hc => by simpa using List.all_eq_true.mp hplain c hc) hlike

theorem keeps_of_absent {w w' : Widening} (hname : w.conname ≠ w'.conname) (hvs : w.values ≠ [])
    (hvalues : ∀ v ∈ w.values, ¬ stem w'.column <:+: v.toList)
    (hhead : ¬ stem w'.column <:+: ("CHECK ((" ++ w.column.name ++ " = ANY (ARRAY[").toList) :
    w'.keeps w.constraint = true := by
  -- A list for another column, where neither its text nor its values have the name in them.
  have hparts : ¬ stem w'.column <:+: ("::text" ++ ", ").toList ∧
      ¬ stem w'.column <:+: ("::text" ++ "])))").toList := by
    rw [String.toList_append, String.toList_append]
    cases w'.column <;> decide +kernel
  have hquote : Char.ofNat 39 ∉ stem w'.column := by cases w'.column <;> decide +kernel
  have hmentioned : w'.mentioned w.constraint = false := by
    refine Bool.eq_false_iff.mpr fun hm => ?_
    rcases infix_definition hquote w hvs (stem_in_definition hm) with h | ⟨v, hv, h⟩ | h | h
    · exact hhead h
    · exact hvalues v hv h
    · exact hparts.1 h
    · exact hparts.2 h
  simp only [Widening.keeps, hmentioned, Bool.not_false, Bool.true_and]
  exact bne_iff_ne.mpr hname

theorem values_absent : ∀ v ∈ VALID_PARTICIPANTS,
    ¬ stem .recipient <:+: v.toList ∧ ¬ stem .msgType <:+: v.toList := by
  decide +kernel

theorem widenings_apart : widenings.Pairwise fun w w' => w'.keeps w.constraint = true := by
  -- No list is dropped for the sake of a later column.
  have hsenders : ∀ v ∈ SENDER_VALUES, v ∈ VALID_PARTICIPANTS := by
    intro v hv
    exact List.mem_of_mem_filter ((mem_sortedSet _ v).mp hv)
  have hrecipients : ∀ v ∈ RECIPIENT_VALUES, v ∈ VALID_PARTICIPANTS :=
    fun v hv => (mem_sortedSet _ v).mp hv
  have hsome : SENDER_VALUES ≠ [] ∧ RECIPIENT_VALUES ≠ [] := by decide +kernel
  unfold widenings
  simp only [List.pairwise_cons, List.forall_mem_cons, List.not_mem_nil, false_implies, implies_true, and_true,
    List.Pairwise.nil]
  refine ⟨⟨?_, ?_⟩, ?_⟩
  · exact keeps_of_absent (by decide) hsome.1 (fun v hv => (values_absent v (hsenders v hv)).1) (by decide +kernel)
  · exact keeps_of_absent (by decide) hsome.1 (fun v hv => (values_absent v (hsenders v hv)).2) (by decide +kernel)
  · exact keeps_of_absent (by decide) hsome.2
      (fun v hv => (values_absent v (hrecipients v hv)).2) (by decide +kernel)

theorem dropped_constraints (w : Widening) (t : Table) :
    ((t.dropWhere w.mentioned).dropWhere (·.conname == w.conname)).constraints =
      t.constraints.filter w.keeps := by
  simp only [Table.dropWhere, List.filter_filter]
  congr 1
  funext c
  simp [Widening.keeps, bne, Bool.and_comm]

theorem widen_refused (w : Widening) (t : Table)
    (h : ¬ ∀ r ∈ t.rows, w.constraint.accepts r = true) :
    ∃ e, w.widen t = .error e := by
  unfold Widening.widen Table.addConstraint
  split
  · rw [dif_neg (by simpa [Table.dropWhere] using h)]
    exact ⟨_, rfl⟩
  · exact ⟨_, rfl⟩

theorem widen_spec (w : Widening) (t : Table) (h : ∀ r ∈ t.rows, w.constraint.accepts r = true) :
    ∃ t', w.widen t = .ok t' ∧ t'.rows = t.rows ∧ t'.nextId = t.nextId ∧
      t'.constraints = t.constraints.filter w.keeps ++ [w.constraint] := by
  have hcs := dropped_constraints w t
  have hnew : w.constraint.conname ∉ (t.constraints.filter w.keeps).map (·.conname) := by
    intro hmem
    obtain ⟨c, hc, hname⟩ := List.mem_map.mp hmem
    have hkept := (List.mem_filter.mp hc).2
    simp only [Widening.keeps, Bool.and_eq_true, bne_iff_ne] at hkept
    exact hkept.2 hname
  have hnamed : ((t.constraints.filter w.keeps ++ [w.constraint]).map (·.conname)).Nodup := by
    rw [List.map_append, List.map_singleton, List.nodup_append]
    refine ⟨t.named.sublist (List.filter_sublist.map _), by simp, fun i hi j hj => ?_⟩
    rw [List.mem_singleton.mp hj]
    exact fun heq => hnew (heq ▸ hi)
  unfold Widening.widen Table.addConstraint
  rw [dif_pos (by rw [hcs]; exact hnamed), dif_pos (by exact h)]
  exact ⟨_, rfl, rfl, rfl, congrArg (· ++ [w.constraint]) hcs⟩

/-! ## All three -/

def widenEach (ws : List Widening) : List Statement := ws.map fun w => Database.onTable w.widen

theorem execute_refused (ws : List Widening) (rest : List Statement) (db : Database) (t : Table)
    (ht : db.table = some t) (h : ¬ ∀ w ∈ ws, ∀ r ∈ t.rows, w.constraint.accepts r = true) :
    ∃ e db', execute (widenEach ws ++ rest) db = (.error e, db') := by
  induction ws generalizing db t with
  | nil => simp at h
  | cons w ws ih =>
    by_cases hw : ∀ r ∈ t.rows, w.constraint.accepts r = true
    · obtain ⟨t', ht', hrows, -, -⟩ := widen_spec w t hw
      have hlater : ¬ ∀ w ∈ ws, ∀ r ∈ t'.rows, w.constraint.accepts r = true := by
        rw [hrows]
        exact fun hall => h (List.forall_mem_cons.mpr ⟨hw, hall⟩)
      simp only [widenEach, List.map_cons, List.cons_append, execute, Database.onTable, ht, ht', Except.map]
      exact ih { db with table := some t' } t' rfl hlater
    · obtain ⟨e, he⟩ := widen_refused w t hw
      simp only [widenEach, List.map_cons, List.cons_append, execute, Database.onTable, ht, he, Except.map]
      exact ⟨_, _, rfl⟩

theorem execute_widens (ws : List Widening)
    (hapart : ws.Pairwise fun w w' => w'.keeps w.constraint = true) (rest : List Statement)
    (db : Database) (t : Table) (ht : db.table = some t)
    (h : ∀ w ∈ ws, ∀ r ∈ t.rows, w.constraint.accepts r = true) :
    ∃ t', t'.rows = t.rows ∧ t'.nextId = t.nextId ∧ t'.constraints = replaced ws t.constraints ∧
      execute (widenEach ws ++ rest) db = execute rest { db with table := some t' } := by
  induction ws generalizing db t with
  | nil =>
    refine ⟨t, rfl, rfl, by simp [replaced], ?_⟩
    rw [← ht]
    rfl
  | cons w ws ih =>
    obtain ⟨hw, hws⟩ := List.forall_mem_cons.mp h
    obtain ⟨hlater, hapart⟩ := List.pairwise_cons.mp hapart
    obtain ⟨t₁, ht₁, hrows₁, hid₁, hcs₁⟩ := widen_spec w t hw
    obtain ⟨t', hrows, hid, hcs, heq⟩ :=
      ih hapart { db with table := some t₁ } t₁ rfl (by rwa [hrows₁])
    refine ⟨t', hrows.trans hrows₁, hid.trans hid₁, ?_, ?_⟩
    · have hall : ws.all (·.keeps w.constraint) = true := List.all_eq_true.mpr hlater
      rw [hcs, hcs₁]
      simp [replaced, List.filter_append, List.filter_filter, hall, Bool.and_comm]
    · simp only [widenEach, List.map_cons, List.cons_append, execute, Database.onTable, ht, ht₁, Except.map]
      exact heq

theorem replaced_idem (ws : List Widening) (cs : List Constraint) :
    replaced ws (replaced ws cs) = replaced ws cs := by
  have hnone : (ws.map (·.constraint)).filter (fun c => ws.all (·.keeps c)) = [] := by
    rw [List.filter_eq_nil_iff]
    intro c hc hall
    obtain ⟨w, hw, rfl⟩ := List.mem_map.mp hc
    have hkeeps := List.all_eq_true.mp hall w hw
    rw [keeps_constraint_self] at hkeeps
    cases hkeeps
  simp only [replaced, List.filter_append, List.filter_filter, Bool.and_self, hnone, List.append_nil]

/-! ## `ensure_schema` -/

theorem mem_createIndex {indexes : List String} {name other : String} :
    other ∈ createIndex indexes name ↔ other ∈ indexes ∨ other = name := by
  unfold createIndex
  split
  · next hmem => exact ⟨.inl, fun h => h.elim id fun heq => heq ▸ hmem⟩
  · simp

theorem createIndexes_idem (indexes : List String) :
    createIndexes (createIndexes indexes) = createIndexes indexes := by
  have hsame : ∀ names existing : List String, (∀ n ∈ names, n ∈ existing) →
      names.foldl createIndex existing = existing := by
    intro names existing hall
    induction names with
    | nil => rfl
    | cons n rest ih =>
      obtain ⟨hn, hrest⟩ := List.forall_mem_cons.mp hall
      rw [List.foldl_cons, createIndex, if_pos hn]
      exact ih hrest
  refine hsame _ _ fun n hn => ?_
  simp only [createIndexes, List.foldl_cons, List.foldl_nil, mem_createIndex]
  simp only [List.mem_cons, List.not_mem_nil, or_false] at hn
  tauto

/-- The database after a migration that left `t`. -/
def migrated (db : Database) (t : Table) : Database :=
  ⟨some t, createIndexes db.indexes, true, true⟩

theorem ensureSchema_eq (sp : Spelling) (db : Database) :
    ensureSchema sp db = execute (widenEach widenings ++ [DDL_INDEXES, DDL_TRIGGER_FN, DDL_TRIGGER])
      { db with table := some (db.table.getD .empty) } := by
  unfold ensureSchema
  rw [widenSql_eq]
  rfl

theorem ensureSchema_spec (sp : Spelling) (db : Database) (t : Table)
    (ht : db.table.getD .empty = t) (h : ∀ r ∈ t.rows, Known r) :
    ∃ t', t'.rows = t.rows ∧ t'.nextId = t.nextId ∧
      t'.constraints = replaced widenings t.constraints ∧
      ensureSchema sp db = (.ok (), migrated db t') := by
  have hknown : ∀ w ∈ widenings, ∀ r ∈ t.rows, w.constraint.accepts r = true :=
    fun w hw r hr => (known_iff r).mp (h r hr) w hw
  obtain ⟨t', hrows, hid, hcs, heq⟩ := execute_widens widenings widenings_apart
    [DDL_INDEXES, DDL_TRIGGER_FN, DDL_TRIGGER] { db with table := some t } t rfl hknown
  refine ⟨t', hrows, hid, hcs, ?_⟩
  rw [ensureSchema_eq, ht, heq]
  rfl

/-- The migration returns, changes nothing more when it runs again, and every row that the checks
took before is taken after. -/
def Widens (sp : Spelling) (db : Database) (t : Table) : Prop :=
  ∃ db' t', ensureSchema sp db = (.ok (), db') ∧ ensureSchema sp db' = (.ok (), db') ∧
    db'.table = some t' ∧ ∀ r, t.Accepts r → t'.Accepts r

theorem known_of_widens {db : Database} {t : Table} (ht : db.table = some t) (h : Widens sp db t)
    {r : Row} (hr : t.Accepts r) : Known r := by
  obtain ⟨db', t', hrun, -, ht', hkept⟩ := h
  by_cases hall : ∀ w ∈ widenings, ∀ r ∈ t.rows, w.constraint.accepts r = true
  · obtain ⟨t₁, -, -, hcs, heq⟩ := ensureSchema_spec sp db t (by simp [ht])
      fun r hr => (known_iff r).mpr fun w hw => hall w hw r hr
    rw [heq] at hrun
    obtain rfl := (Prod.mk.inj hrun).2
    obtain rfl := Option.some.inj ht'
    refine (known_iff r).mpr fun w hw => hkept r hr _ ?_
    rw [hcs]
    exact List.mem_append_right _ (List.mem_map_of_mem hw)
  · obtain ⟨e, db₁, herror⟩ := execute_refused widenings [DDL_INDEXES, DDL_TRIGGER_FN, DDL_TRIGGER]
      { db with table := some (db.table.getD .empty) } t (by simp [ht]) hall
    rw [ensureSchema_eq, herror] at hrun
    cases (Prod.mk.inj hrun).1

theorem widens_of_known {db : Database} {t : Table} (ht : db.table = some t)
    (h : ∀ r, t.Accepts r → Known r) : Widens sp db t := by
  obtain ⟨t', hrows, hid, hcs, hrun⟩ := ensureSchema_spec sp db t (by simp [ht])
    fun r hr => h r fun c hc => t.checked r hr c hc
  obtain ⟨t'', hrows', hid', hcs', hagain⟩ := ensureSchema_spec sp (migrated db t') t' rfl
    fun r hr => h r fun c hc => t.checked r (hrows ▸ hr) c hc
  have hsame : t'' = t' := by
    refine Table.ext hrows' hid' ?_
    rw [hcs', hcs, replaced_idem]
  refine ⟨migrated db t', t', hrun, ?_, rfl, fun r hr c hc => ?_⟩
  · rw [hagain, hsame]
    simp [migrated, createIndexes_idem]
  · rw [hcs] at hc
    rcases List.mem_append.mp hc with hc | hc
    · exact hr c (List.mem_of_mem_filter hc)
    · obtain ⟨w, hw, rfl⟩ := List.mem_map.mp hc
      exact (known_iff r).mp (h r hr) w hw

/-- **When the migration widens.** -/
theorem widens_iff (sp : Spelling) (t : Table) (indexes : List String)
    (notifyFunction trigger : Bool) :
    Widens sp ⟨some t, indexes, notifyFunction, trigger⟩ t ↔ ∀ r, t.Accepts r → Known r :=
  ⟨fun h _ hr => known_of_widens rfl h hr, widens_of_known rfl⟩

/-! ## A participant of its own -/

def reviewerCheck : Constraint where
  conname := "chk_sender"
  definition := "CHECK ((sender = ANY (ARRAY['codex'::text, 'reviewer'::text])))"
  accepts r := r.sender == "codex" || r.sender == "reviewer"

/-- A table whose check takes one more sender. -/
def reviewerTable : Table :=
  { Table.empty with
    constraints := [reviewerCheck]
    named := List.nodup_singleton _
    checked := fun _ hr => absurd hr List.not_mem_nil }

def fromReviewer : Row where
  id := 1
  createdAt := 0
  sender := "reviewer"
  recipient := "dispatch"
  msgType := "answer"
  taskRef := none
  branch := none
  prNumber := none
  summary := "looks fine"
  payload := []
  status := "unread"
  ackOf := none
  readAt := none
  ackedAt := none

def plainSpelling : Spelling := ⟨quoted, id⟩

theorem reviewer_dropped :
    ¬ Widens plainSpelling ⟨some reviewerTable, [], false, false⟩ reviewerTable := by
  intro h
  have hbefore : reviewerTable.Accepts fromReviewer := by
    simp [Table.Accepts, reviewerTable, reviewerCheck, fromReviewer]
  have hknown := (known_of_widens rfl h hbefore).1
  exact absurd ((mem_sortedSet _ _).mp hknown) (by decide +kernel)

end Swarm.Postgres
