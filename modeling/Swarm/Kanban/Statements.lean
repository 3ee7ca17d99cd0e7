import Swarm.Kanban.Gains
import Swarm.Lib.Runs

/-!
# Edges written by many connections

The connections of the kanban are in autocommit mode: every statement of `add_blocked_by` is a
transaction of its own. A caller runs its statements in order, and others may come between.
-/

namespace Swarm.Kanban.Statements

open Swarm.Lib

/-! ## Callers -/

/-- One `add_blocked_by` with the ids that are not empty. -/
structure Job where
  taskId : String
  ids : List String
  deriving DecidableEq

/-- A call that adds edges. -/
inductive Request
  | addBlockedBy (taskId : String) (blockerIds : List String)
  | addBlocks (taskId : String) (blockedIds : List String)

/-- A call without ids makes no statement. -/
def Request.jobs : Request → List Job
  | .addBlockedBy taskId blockerIds =>
    let ids := blockerIds.filter (· != "")
    if ids.isEmpty then [] else [⟨taskId, ids⟩]
  | .addBlocks taskId blockedIds =>
    if taskId = "" then [] else (blockedIds.filter (· != "")).map fun blocked => ⟨blocked, [taskId]⟩

/-- Where a call stands between its statements. -/
inductive Pc
  /-- Before the `SELECT blocked_by` of the next job. -/
  | ready
  /-- Before `UPDATE tasks SET blocked_by`. -/
  | merged (job : Job) (merged : List String)
  /-- Before the `SELECT blocks` of `blocker`. -/
  | mirror (job : Job) (seen : List String) (blocker : String) (rest : List String)
  /-- Before `UPDATE tasks SET blocks`. -/
  | append (job : Job) (seen : List String) (blocker : String) (rest : List String) (blist : List String)
  | raised (e : PyError)
  deriving DecidableEq

/-- `finished` has the jobs that are done. -/
structure Caller where
  finished : List Job
  pc : Pc
  todo : List Job

def Caller.Returned (c : Caller) : Prop := c.pc = .ready ∧ c.todo = []

instance (c : Caller) : Decidable c.Returned := inferInstanceAs (Decidable (_ ∧ _))

/-- The loop over the blockers goes on, or ends the job. -/
def Caller.loop (c : Caller) (job : Job) (seen : List String) : List String → Caller
  | [] => { c with finished := c.finished ++ [job], pc := .ready }
  | blocker :: rest => { c with pc := .mirror job seen blocker rest }

def Caller.raise (c : Caller) (e : PyError) : Caller := { c with pc := .raised e }

/-- The next statement, and what Python makes of its answer. -/
def Caller.statement (c : Caller) (b : Board) : Option (Caller × Board) :=
  match c.pc with
  | .ready =>
    match c.todo with
    | [] => none
    | job :: todo =>
      match b.select job.taskId with
      | none => some (c.raise (.keyError job.taskId), b)
      | some row =>
        match loadList row.blockedBy >>= asStrs with
        | .error e => some (c.raise e, b)
        | .ok current =>
          some ({ c with pc := .merged job (sortedSet (current ++ job.ids)), todo := todo }, b)
  | .merged job merged =>
    some (c.loop job [] job.ids,
      b.modify job.taskId (fun r => { r with blockedBy := dumps (.ofStrs merged) })
        (blockedBy_keeps_id _))
  | .mirror job seen blocker rest =>
    match b.select blocker with
    | none => some (c.loop job (seen ++ [blocker]) rest, b)
    | some brow =>
      match loadList brow.blocks >>= mirrored job.taskId with
      | .error e => some (c.raise e, b)
      | .ok none => some (c.loop job (seen ++ [blocker]) rest, b)
      | .ok (some blist) => some ({ c with pc := .append job seen blocker rest blist }, b)
  | .append job seen blocker rest blist =>
    some (c.loop job (seen ++ [blocker]) rest,
      b.modify blocker (fun r => { r with blocks := some (.json (.ofStrs blist)) })
        (blocks_keeps_id _))
  | .raised _ => none

/-! ## The machine -/

structure State (P : Type*) where
  board : Board
  callers : P → Caller

/-- A statement of one caller, run or refused. -/
inductive Label (P : Type*)
  | statement (p : P)
  /-- The statement raises, as a locked database makes it do. -/
  | fail (p : P) (e : PyError)

variable {P : Type*} [DecidableEq P]

/-- One statement of one caller. -/
def step (l : Label P) (s : State P) : Option (State P) :=
  match l with
  | .statement p =>
    ((s.callers p).statement s.board).map fun out =>
      ⟨out.2, Function.update s.callers p out.1⟩
  | .fail p e =>
    if ((s.callers p).statement s.board).isSome then
      some { s with callers := Function.update s.callers p ((s.callers p).raise e) }
    else none

def start (requests : P → Request) (b : Board) : State P :=
  ⟨b, fun p => ⟨[], .ready, (requests p).jobs⟩⟩

/-! ## What must not be lost -/

/-- Every id of the job is in the task's `blocked_by`, and the task in the `blocks` of each that is
on the board. -/
def Recorded (b : Board) (job : Job) : Prop :=
  ∀ id ∈ job.ids, BlockedBy b job.taskId id ∧ ((b.select id).isSome → Blocks b id job.taskId)

/-- An UPDATE writes everything that the column holds at that time. -/
def Caller.Carries (c : Caller) (b : Board) : Prop :=
  match c.pc with
  | .merged job merged => ∀ x, BlockedBy b job.taskId x → x ∈ merged
  | .append _ _ blocker _ blist => ∀ x, Blocks b blocker x → x ∈ blist
  | _ => True

def Carries (s : State P) : Label P → Prop
  | .statement p => (s.callers p).Carries s.board
  | .fail .. => True

/-! ## Boards that lose no entry -/

/-- No edge is lost at either end. -/
structure Grows (b b' : Board) : Prop where
  rows : ∀ id, (b'.select id).isSome = (b.select id).isSome
  blockedBy : ∀ taskId x, BlockedBy b taskId x → BlockedBy b' taskId x
  blocks : ∀ blocker x, Blocks b blocker x → Blocks b' blocker x

theorem Grows.refl (b : Board) : Grows b b := ⟨fun _ => rfl, fun _ _ h => h, fun _ _ h => h⟩

theorem Recorded.grow {b b' : Board} {job : Job} (h : Recorded b job) (hgrows : Grows b b') :
    Recorded b' job := fun id hid =>
  ⟨hgrows.blockedBy _ _ (h id hid).1, fun hsome => hgrows.blocks _ _ ((h id hid).2 (hgrows.rows id ▸ hsome))⟩

theorem grows_blockedBy {b : Board} {taskId : String} {merged : List String}
    (h : ∀ x, BlockedBy b taskId x → x ∈ merged) :
    Grows b (b.modify taskId (fun r => { r with blockedBy := dumps (.ofStrs merged) }) fun _ => rfl) := by
  refine ⟨fun id => by rw [select_modify, Option.isSome_map], fun t x hx => ?_, fun t x hx => ?_⟩
  · obtain ⟨r, hr, hnames⟩ := hx
    refine ⟨_, by rw [select_modify, hr, Option.map_some], ?_⟩
    split
    · rename_i hid
      obtain rfl : t = taskId := (select_mem b t r hr).2.symm.trans hid
      exact (names_dumps merged x).mpr (h x ⟨r, hr, hnames⟩)
    · exact hnames
  · obtain ⟨r, hr, hnames⟩ := hx
    refine ⟨_, by rw [select_modify, hr, Option.map_some], ?_⟩
    split <;> exact hnames

theorem grows_blocks {b : Board} {blocker : String} {blist : List String}
    (h : ∀ x, Blocks b blocker x → x ∈ blist) :
    Grows b (b.modify blocker (fun r => { r with blocks := some (.json (.ofStrs blist)) }) fun _ => rfl) := by
  refine ⟨fun id => by rw [select_modify, Option.isSome_map], fun t x hx => ?_, fun t x hx => ?_⟩
  · obtain ⟨r, hr, hnames⟩ := hx
    refine ⟨_, by rw [select_modify, hr, Option.map_some], ?_⟩
    split <;> exact hnames
  · obtain ⟨r, hr, hnames⟩ := hx
    refine ⟨_, by rw [select_modify, hr, Option.map_some], ?_⟩
    split
    · rename_i hid
      obtain rfl : t = blocker := (select_mem b t r hr).2.symm.trans hid
      exact (names_text blist x).mpr (h x ⟨r, hr, hnames⟩)
    · exact hnames

/-! ## One caller -/

/-- The task names all ids of the job, and those in `seen` name the task. -/
structure Partly (b : Board) (job : Job) (seen rest : List String) : Prop where
  ids : seen ++ rest = job.ids
  blockedBy : ∀ id ∈ job.ids, BlockedBy b job.taskId id
  blocks : ∀ id ∈ seen, (b.select id).isSome → Blocks b id job.taskId

theorem Partly.grow {b b' : Board} {job : Job} {seen rest : List String}
    (h : Partly b job seen rest) (hgrows : Grows b b') : Partly b' job seen rest :=
  ⟨h.ids, fun id hid => hgrows.blockedBy _ _ (h.blockedBy id hid),
    fun id hid hsome => hgrows.blocks _ _ (h.blocks id hid (hgrows.rows id ▸ hsome))⟩

theorem Partly.seen {b : Board} {job : Job} {seen rest : List String} {blocker : String}
    (h : Partly b job seen (blocker :: rest))
    (hblocks : (b.select blocker).isSome → Blocks b blocker job.taskId) :
    Partly b job (seen ++ [blocker]) rest := by
  refine ⟨by simpa using h.ids, h.blockedBy, fun id hid => ?_⟩
  rcases List.mem_append.mp hid with hid | hid
  · exact h.blocks id hid
  · obtain rfl := List.mem_singleton.mp hid
    exact hblocks

/-- What a caller has recorded so far, of `jobs` in all. -/
def Caller.Ok (jobs : List Job) (c : Caller) (b : Board) : Prop :=
  (∀ job ∈ c.finished, Recorded b job) ∧
  match c.pc with
  | .ready => c.finished ++ c.todo = jobs
  | .merged job merged =>
    c.finished ++ job :: c.todo = jobs ∧ job.ids ⊆ merged ∧ (b.select job.taskId).isSome
  | .mirror job seen blocker rest =>
    c.finished ++ job :: c.todo = jobs ∧ Partly b job seen (blocker :: rest)
  | .append job seen blocker rest blist =>
    c.finished ++ job :: c.todo = jobs ∧ Partly b job seen (blocker :: rest) ∧ job.taskId ∈ blist ∧
      (b.select blocker).isSome
  | .raised _ => True

theorem Caller.Ok.grow {jobs : List Job} {c : Caller} {b b' : Board} (h : c.Ok jobs b)
    (hgrows : Grows b b') : c.Ok jobs b' := by
  obtain ⟨hfinished, hpc⟩ := h
  refine ⟨fun job hjob => (hfinished job hjob).grow hgrows, ?_⟩
  cases c with
  | mk finished pc todo =>
    cases pc with
    | ready => exact hpc
    | merged job merged => exact ⟨hpc.1, hpc.2.1, (hgrows.rows _).trans hpc.2.2⟩
    | mirror job seen blocker rest => exact ⟨hpc.1, hpc.2.grow hgrows⟩
    | append job seen blocker rest blist =>
      exact ⟨hpc.1, hpc.2.1.grow hgrows, hpc.2.2.1, (hgrows.rows _).trans hpc.2.2.2⟩
    | raised e => trivial

theorem Caller.loop_ok {jobs : List Job} {c : Caller} {b : Board} {job : Job}
    {seen rest : List String} (hfinished : ∀ job ∈ c.finished, Recorded b job)
    (hjobs : c.finished ++ job :: c.todo = jobs) (h : Partly b job seen rest) :
    (c.loop job seen rest).Ok jobs b := by
  cases rest with
  | nil =>
    refine ⟨fun job' hjob' => ?_, by simpa [Caller.loop] using hjobs⟩
    rcases List.mem_append.mp hjob' with hjob' | hjob'
    · exact hfinished job' hjob'
    · obtain rfl := List.mem_singleton.mp hjob'
      have hseen : seen = job'.ids := by simpa using h.ids
      exact fun id hid => ⟨h.blockedBy id hid, h.blocks id (hseen ▸ hid)⟩
  | cons blocker rest => exact ⟨hfinished, hjobs, h⟩

theorem Caller.raise_ok {jobs : List Job} {c : Caller} {b : Board} (h : c.Ok jobs b) (e : PyError) :
    (c.raise e).Ok jobs b := ⟨h.1, trivial⟩

theorem statement_spec {jobs : List Job} {c c' : Caller} {b b' : Board} (hok : c.Ok jobs b)
    (hcarries : c.Carries b) (h : c.statement b = some (c', b')) : Grows b b' ∧ c'.Ok jobs b' := by
  obtain ⟨hfinished, hpc⟩ := hok
  cases c with
  | mk finished pc todo =>
    cases pc with
    | ready =>
      -- The SELECT of the next job, which changes nothing.
      cases todo with
      | nil => simp [Caller.statement] at h
      | cons job todo =>
        simp only [Caller.statement] at h
        split at h
        · obtain ⟨rfl, rfl⟩ := Prod.mk.inj (Option.some.inj h)
          exact ⟨.refl b, hfinished, trivial⟩
        · rename_i row hrow
          split at h
          · obtain ⟨rfl, rfl⟩ := Prod.mk.inj (Option.some.inj h)
            exact ⟨.refl b, hfinished, trivial⟩
          · rename_i current _
            obtain ⟨rfl, rfl⟩ := Prod.mk.inj (Option.some.inj h)
            refine ⟨.refl b, hfinished, hpc, fun id hid => ?_, by simp [hrow]⟩
            exact (mem_sortedSet _ id).mpr (List.mem_append_right current hid)
    | merged job merged =>
      -- The UPDATE of `blocked_by`.
      obtain ⟨hjobs, hsub, hsome⟩ := hpc
      obtain ⟨rfl, rfl⟩ := Prod.mk.inj (Option.some.inj h)
      have hgrows := grows_blockedBy hcarries
      refine ⟨hgrows, Caller.loop_ok (fun job hjob => (hfinished job hjob).grow hgrows) hjobs
        ⟨by simp, fun id hid => ?_, by simp⟩⟩
      obtain ⟨row, hrow⟩ := Option.isSome_iff_exists.mp hsome
      refine ⟨_, by rw [select_modify, hrow, Option.map_some], ?_⟩
      rw [if_pos (select_mem b _ row hrow).2]
      exact (names_dumps merged id).mpr (hsub hid)
    | mirror job seen blocker rest =>
      -- The SELECT of a blocker. One that is not on the board is passed over.
      obtain ⟨hjobs, hpartly⟩ := hpc
      simp only [Caller.statement] at h
      split at h
      · rename_i hnone
        obtain ⟨rfl, rfl⟩ := Prod.mk.inj (Option.some.inj h)
        exact ⟨.refl b, Caller.loop_ok hfinished hjobs (hpartly.seen fun hsome => by simp [hnone] at hsome)⟩
      · rename_i brow hbrow
        split at h
        · obtain ⟨rfl, rfl⟩ := Prod.mk.inj (Option.some.inj h)
          exact ⟨.refl b, hfinished, trivial⟩
        · rename_i hmirrored
          obtain ⟨rfl, rfl⟩ := Prod.mk.inj (Option.some.inj h)
          have hblocks : Blocks b blocker job.taskId := ⟨brow, hbrow, names_of_mirrored hmirrored⟩
          exact ⟨.refl b, Caller.loop_ok hfinished hjobs (hpartly.seen fun _ => hblocks)⟩
        · rename_i blist hmirrored
          obtain ⟨rfl, rfl⟩ := Prod.mk.inj (Option.some.inj h)
          exact ⟨.refl b, hfinished, hjobs, hpartly, mem_of_mirrored hmirrored, by simp [hbrow]⟩
    | append job seen blocker rest blist =>
      -- The UPDATE of its `blocks`.
      obtain ⟨hjobs, hpartly, hmem, hsome⟩ := hpc
      obtain ⟨rfl, rfl⟩ := Prod.mk.inj (Option.some.inj h)
      have hgrows := grows_blocks hcarries
      refine ⟨hgrows, Caller.loop_ok (fun job hjob => (hfinished job hjob).grow hgrows) hjobs
        ((hpartly.grow hgrows).seen fun _ => ?_)⟩
      obtain ⟨row, hrow⟩ := Option.isSome_iff_exists.mp hsome
      refine ⟨_, by rw [select_modify, hrow, Option.map_some], ?_⟩
      rw [if_pos (select_mem b _ row hrow).2]
      exact (names_text blist _).mpr hmem
    | raised e => simp [Caller.statement] at h

/-! ## A caller with nobody beside it -/

/-- Statements of one caller in a row. -/
def Alone : Caller × Board → Caller × Board → Prop :=
  Relation.ReflTransGen fun x y => x.1.statement x.2 = some y

/-- How the caller stands after a job that came to `result`. -/
def Caller.After (c c' : Caller) (job : Job) (result : Except PyError Unit) : Prop :=
  match result with
  | .ok () => c' = { c with finished := c.finished ++ [job], pc := .ready }
  | .error e => c'.pc = .raised e

theorem alone_loop (c : Caller) (job : Job) (seen rest : List String) (b : Board) :
    ∃ c', Alone (c.loop job seen rest, b) (c', (mirrorLoop job.taskId b rest).2) ∧
      c.After c' job (mirrorLoop job.taskId b rest).1 := by
  induction rest generalizing seen b with
  | nil => exact ⟨_, .refl, rfl⟩
  | cons blocker rest ih =>
    cases hrow : b.select blocker with
    | none =>
      obtain ⟨c', halone, hafter⟩ := ih (seen ++ [blocker]) b
      simp only [mirrorLoop, hrow]
      exact ⟨c', .head (by simp [Caller.loop, Caller.statement, hrow]) halone, hafter⟩
    | some brow =>
      cases hmirrored : loadList brow.blocks >>= mirrored job.taskId with
      | error e =>
        simp only [mirrorLoop, hrow, hmirrored]
        refine ⟨(c.loop job seen (blocker :: rest)).raise e, .single ?_, rfl⟩
        simp [Caller.loop, Caller.statement, hrow, hmirrored]
      | ok blist =>
        cases blist with
        | none =>
          obtain ⟨c', halone, hafter⟩ := ih (seen ++ [blocker]) b
          simp only [mirrorLoop, hrow, hmirrored]
          exact ⟨c', .head (by simp [Caller.loop, Caller.statement, hrow, hmirrored]) halone, hafter⟩
        | some blist =>
          obtain ⟨c', halone, hafter⟩ := ih (seen ++ [blocker])
            (b.modify blocker (fun r => { r with blocks := some (.json (.ofStrs blist)) }) fun _ => rfl)
          simp only [mirrorLoop, hrow, hmirrored]
          have hselect : (c.loop job seen (blocker :: rest)).statement b =
              some ({ c with pc := .append job seen blocker rest blist }, b) := by
            simp [Caller.loop, Caller.statement, hrow, hmirrored]
          exact ⟨c', .head hselect (.head rfl halone), hafter⟩

theorem alone_job (finished : List Job) (job : Job) (todo : List Job) (b : Board)
    (hne : job.ids ≠ []) (hids : ∀ id ∈ job.ids, id ≠ "") :
    ∃ c', Alone (⟨finished, .ready, job :: todo⟩, b) (c', (addBlockedBy b job.taskId job.ids).2) ∧
      (⟨finished, .ready, todo⟩ : Caller).After c' job (addBlockedBy b job.taskId job.ids).1 := by
  have hfilter : job.ids.filter (· != "") = job.ids := List.filter_eq_self.mpr (by simpa using hids)
  cases hrow : b.select job.taskId with
  | none =>
    simp only [addBlockedBy, hfilter, List.isEmpty_iff, hne, if_false, hrow]
    exact ⟨(⟨finished, .ready, job :: todo⟩ : Caller).raise (.keyError job.taskId),
      .single (by simp [Caller.statement, hrow]), rfl⟩
  | some row =>
    cases hload : loadList row.blockedBy >>= asStrs with
    | error e =>
      simp only [addBlockedBy, hfilter, List.isEmpty_iff, hne, if_false, hrow, hload]
      exact ⟨(⟨finished, .ready, job :: todo⟩ : Caller).raise e,
        .single (by simp [Caller.statement, hrow, hload]), rfl⟩
    | ok current =>
      obtain ⟨c', halone, hafter⟩ := alone_loop ⟨finished, .ready, todo⟩ job [] job.ids
        (b.modify job.taskId
          (fun r => { r with blockedBy := dumps (.ofStrs (sortedSet (current ++ job.ids))) }) fun _ => rfl)
      simp only [addBlockedBy, hfilter, List.isEmpty_iff, hne, if_false, hrow, hload]
      have hselect : (⟨finished, .ready, job :: todo⟩ : Caller).statement b =
          some (⟨finished, .merged job (sortedSet (current ++ job.ids)), todo⟩, b) := by
        simp [Caller.statement, hrow, hload]
      have hloop : (⟨finished, .merged job (sortedSet (current ++ job.ids)), todo⟩ : Caller).loop job [] job.ids =
          (⟨finished, .ready, todo⟩ : Caller).loop job [] job.ids := by
        cases job.ids <;> rfl
      refine ⟨c', .head hselect (.head ?_ halone), hafter⟩
      rw [← hloop]
      rfl

theorem alone_blocks (taskId : String) (htask : taskId ≠ "") (blocked : List String)
    (finished : List Job) (b : Board) :
    ∃ c', Alone (⟨finished, .ready, blocked.map fun t => ⟨t, [taskId]⟩⟩, b)
        (c', (addBlocksLoop b taskId blocked).2) ∧
      ((addBlocksLoop b taskId blocked).1 = .ok () → c'.Returned) := by
  induction blocked generalizing finished b with
  | nil => exact ⟨_, .refl, fun _ => ⟨rfl, rfl⟩⟩
  | cons t blocked ih =>
    obtain ⟨c₁, hfirst, hafter⟩ :=
      alone_job finished ⟨t, [taskId]⟩ (blocked.map fun t => ⟨t, [taskId]⟩) b
      (by simp) (by simpa using htask)
    simp only [addBlocksLoop]
    cases hresult : addBlockedBy b t [taskId] with
    | mk result b₁ =>
      rw [hresult] at hfirst hafter
      cases result with
      | error e => exact ⟨c₁, hfirst, fun h => by simp at h⟩
      | ok u =>
        obtain rfl := hafter
        obtain ⟨c', hrest, hreturned⟩ := ih (finished ++ [⟨t, [taskId]⟩]) b₁
        exact ⟨c', hfirst.trans hrest, hreturned⟩

/-- The whole call, with no other between its statements. -/
def Request.apply (b : Board) : Request → Except PyError Unit × Board
  | .addBlockedBy taskId blockerIds => Kanban.addBlockedBy b taskId blockerIds
  | .addBlocks taskId blockedIds => Kanban.addBlocks b taskId blockedIds

theorem addBlocksLoop_empty (b : Board) (ids : List String) :
    addBlocksLoop b "" ids = (.ok (), b) := by
  induction ids with
  | nil => rfl
  | cons t ids ih => simpa [addBlocksLoop, Kanban.addBlockedBy] using ih

/-- The statements of a call, with no other between them, do what the method does. -/
theorem alone_request (r : Request) (b : Board) :
    ∃ c', Alone (⟨[], .ready, r.jobs⟩, b) (c', (r.apply b).2) ∧
      ((r.apply b).1 = .ok () → c'.Returned) := by
  cases r with
  | addBlockedBy taskId ids =>
    by_cases hnone : ids.filter (· != "") = []
    · refine ⟨⟨[], .ready, []⟩, ?_, fun _ => ⟨rfl, rfl⟩⟩
      simp only [Request.jobs, Request.apply, Kanban.addBlockedBy, hnone, List.isEmpty_nil, if_true]
      exact .refl
    · obtain ⟨c', halone, hafter⟩ := alone_job [] ⟨taskId, ids.filter (· != "")⟩ [] b hnone
        (by simp [List.mem_filter])
      rw [addBlockedBy_filter] at halone hafter
      refine ⟨c', by simpa [Request.jobs, Request.apply, List.isEmpty_iff, hnone] using halone, fun hok => ?_⟩
      simp only [Request.apply] at hok
      rw [hok] at hafter
      exact hafter ▸ ⟨rfl, rfl⟩
  | addBlocks taskId blocked =>
    by_cases htask : taskId = ""
    · subst htask
      refine ⟨⟨[], .ready, []⟩, ?_, fun _ => ⟨rfl, rfl⟩⟩
      simp only [Request.jobs, Request.apply, Kanban.addBlocks, addBlocksLoop_empty, if_true]
      exact .refl
    · simp only [Request.jobs, Request.apply, Kanban.addBlocks, htask, if_false]
      exact alone_blocks taskId htask _ [] b

/-! ## Any interleaving -/

theorem step_ok {requests : P → Request} {s s' : State P} {l : Label P}
    (hok : ∀ p, (s.callers p).Ok (requests p).jobs s.board) (hcarries : Carries s l)
    (h : step l s = some s') : ∀ p, (s'.callers p).Ok (requests p).jobs s'.board := by
  cases l with
  | statement p =>
    simp only [step, Option.map_eq_some_iff] at h
    obtain ⟨⟨c', b'⟩, hstatement, rfl⟩ := h
    obtain ⟨hgrows, hok'⟩ := statement_spec (hok p) hcarries hstatement
    intro q
    by_cases hq : q = p
    · subst hq
      simpa using hok'
    · simpa [hq] using (hok q).grow hgrows
  | fail p e =>
    simp only [step] at h
    split at h
    · obtain rfl := Option.some.inj h
      intro q
      by_cases hq : q = p
      · subst hq
        simpa using Caller.raise_ok (hok q) e
      · simpa [hq] using hok q
    · simp at h

/-- **No edge is lost, where every UPDATE carries what the column holds.** -/
theorem edges_recorded (requests : P → Request) (b : Board) (labels : List (Label P))
    (hcarries : ∀ taken ∈ path step (start requests b) labels, Carries taken.before taken.label) :
    ∀ taken ∈ path step (start requests b) labels, ∀ p, (taken.after.callers p).Returned →
      ∀ job ∈ (requests p).jobs, Recorded taken.after.board job := by
  intro taken htaken p ⟨hready, htodo⟩
  have hstart : ∀ p, ((start requests b).callers p).Ok (requests p).jobs (start requests b).board :=
    fun p => ⟨by simp [start], by simp [start]⟩
  obtain ⟨hfinished, hpc⟩ := path_invariant
    (fun s l s' (hok : ∀ p, (s.callers p).Ok (requests p).jobs s.board) hl hs => step_ok hok hl hs)
    (start requests b) labels hstart hcarries taken htaken p
  simp only [hready, htodo, List.append_nil] at hpc
  rwa [← hpc]

/-! ## Two callers -/

instance (b : Board) (job : Job) : Decidable (Recorded b job) := by unfold Recorded; infer_instance

def threeTasks : Board :=
  (submit (submit (submit .empty (Task.new "t" 0) 0).2 (Task.new "a" 1) 1).2 (Task.new "b" 2) 2).2

/-- Two blockers of one task. -/
def fork : Bool → Request
  | true => .addBlockedBy "t" ["a"]
  | false => .addBlockedBy "t" ["b"]

/-- `false` reads the task after `true` wrote it, so that its UPDATE carries the other's blocker. -/
def afterUpdate : List (Label Bool) :=
  [.statement true, .statement true, .statement false, .statement true, .statement false, .statement true,
    .statement false, .statement false]

def columnWithin (col : Option Text) (ids : List String) : Bool :=
  (idsOf col).any fun held => held.all (· ∈ ids)

theorem mem_of_columnWithin {col : Option Text} {ids : List String}
    (h : columnWithin col ids = true) {x : String} (hnames : Names col x) : x ∈ ids := by
  obtain ⟨held, hheld, hall⟩ := Option.any_eq_true _ _ |>.mp h
  have hmem := (names_of_ids hheld x).mp hnames
  simpa using List.all_eq_true.mp hall x hmem

def carriesColumn (s : State P) : Label P → Bool
  | .statement p =>
    match (s.callers p).pc with
    | .merged job merged => (s.board.select job.taskId).all fun r => columnWithin r.blockedBy merged
    | .append _ _ blocker _ blist =>
      (s.board.select blocker).all fun r => columnWithin r.blocks blist
    | _ => true
  | .fail .. => true

omit [DecidableEq P] in
theorem carries_of_column {s : State P} {l : Label P} (h : carriesColumn s l = true) :
    Carries s l := by
  cases l with
  | fail p e => trivial
  | statement p =>
    simp only [Carries, Caller.Carries, carriesColumn] at h ⊢
    split
    · rename_i hpc
      simp only [hpc] at h
      rintro x ⟨r, hr, hnames⟩
      exact mem_of_columnWithin (by simpa [hr] using h) hnames
    · rename_i hpc
      simp only [hpc] at h
      rintro x ⟨r, hr, hnames⟩
      exact mem_of_columnWithin (by simpa [hr] using h) hnames
    · trivial

theorem fork_recorded : ∃ taken ∈ path step (start fork threeTasks) afterUpdate,
    (∀ p, (taken.after.callers p).Returned) ∧
      ∀ p, ∀ job ∈ (fork p).jobs, Recorded taken.after.board job := by
  have hcarries : ∀ taken ∈ path step (start fork threeTasks) afterUpdate,
      carriesColumn taken.before taken.label = true := by decide +kernel
  have hreturned : ∃ taken ∈ path step (start fork threeTasks) afterUpdate,
      ∀ p, (taken.after.callers p).Returned := by decide +kernel
  obtain ⟨taken, htaken, hall⟩ := hreturned
  exact ⟨taken, htaken, hall, fun p => edges_recorded fork threeTasks afterUpdate
    (fun taken htaken => carries_of_column (hcarries taken htaken)) taken htaken p (hall p)⟩

/-- The statements of the two callers in turns. -/
def inTurns : List (Label Bool) :=
  [.statement true, .statement false, .statement true, .statement false, .statement true,
    .statement false, .statement true, .statement false]

theorem fork_loses_edge : ∃ taken ∈ path step (start fork threeTasks) inTurns,
    (∀ p, (taken.after.callers p).Returned) ∧
      ¬ ∀ p, ∀ job ∈ (fork p).jobs, Recorded taken.after.board job := by
  decide +kernel

end Swarm.Kanban.Statements
