import Mathlib.Data.List.Induction

/-!
# One connection for many statements

A caller keeps its connection from one statement to the next. Outside autocommit a statement opens a
transaction, and the commit after it ends the transaction. A statement that the server rejects
leaves the transaction aborted, in which every later statement fails.
-/

namespace Swarm.Lib

variable {Db Ans Call : Type*}

/-! ## The connection -/

/-- The state of a connection. -/
inductive Conn
  | absent
  | idle
  | aborted
  deriving DecidableEq

/-- What becomes of a statement on an idle connection. -/
inductive Verdict
  /-- It goes through, and so does its commit. -/
  | valid
  | rejected
  /-- It fails and leaves no transaction: it is not sent, or its commit fails. -/
  | dropped
  /-- The connection is lost. -/
  | closed
  deriving DecidableEq

def Verdict.rejectIf (bad : Bool) (v : Verdict) : Verdict :=
  if bad ∧ v ≠ .closed then .rejected else v

/-- A connection with its database. -/
structure Session (Db : Type*) where
  conn : Conn
  db : Db

/-- The connection that is kept, or a new one where there is none. -/
def Session.connect (connects : Bool) (s : Session Db) : Option (Session Db) :=
  match s.conn with
  | .absent => if connects then some { s with conn := .idle } else none
  | .idle | .aborted => some s

/-- A statement and its commit. The caller makes `failed` of any error. -/
def Session.transact (verdict : Verdict) (failed : Ans) (statement : Db → Ans × Db)
    (s : Session Db) :
    Ans × Session Db :=
  match verdict, s.conn with
  | .closed, _ => (failed, ⟨.absent, s.db⟩)
  | _, .aborted => (failed, s)
  | .valid, _ => ((statement s.db).1, ⟨.idle, (statement s.db).2⟩)
  | .rejected, _ => (failed, ⟨.aborted, s.db⟩)
  | .dropped, _ => (failed, ⟨.idle, s.db⟩)

/-- A statement with what its caller meets. -/
structure Job (Db Ans : Type*) where
  connects : Bool
  verdict : Verdict
  unavailable : Ans
  failed : Ans
  statement : Db → Ans × Db

def Job.run (j : Job Db Ans) (s : Session Db) : Ans × Session Db :=
  match s.connect j.connects with
  | none => (j.unavailable, s)
  | some s => s.transact j.verdict j.failed j.statement

theorem run_aborted {j : Job Db Ans} {s : Session Db} (h : s.conn = .aborted) :
    (j.run s).1 = j.failed ∧ (j.run s).2.db = s.db := by
  obtain ⟨conn, db⟩ := s
  obtain rfl : conn = .aborted := h
  unfold Job.run Session.connect Session.transact
  cases j.verdict <;> exact ⟨rfl, rfl⟩

theorem run_valid {j : Job Db Ans} {s : Session Db} (hconnects : j.connects = true)
    (hvalid : j.verdict = .valid) (h : s.conn ≠ .aborted) :
    j.run s = ((j.statement s.db).1, ⟨.idle, (j.statement s.db).2⟩) := by
  unfold Job.run Session.connect Session.transact
  cases hconn : s.conn with
  | absent => simp [hconnects, hvalid]
  | idle => simp [hvalid, hconn]
  | aborted => exact absurd hconn h

theorem run_not_valid {j : Job Db Ans} (s : Session Db) (hvalid : j.verdict ≠ .valid) :
    (j.run s).2.db = s.db := by
  unfold Job.run Session.connect Session.transact
  cases hconn : s.conn <;> cases hconnects : j.connects <;> cases hverdict : j.verdict <;>
    simp_all

/-! ## A sequence of calls -/

section

variable (job : Call → Job Db Ans)

/-- The session after the calls. -/
def after (s : Session Db) (calls : List Call) : Session Db :=
  calls.foldl (fun s c => ((job c).run s).2) s

/-- What a call answers, and what is stored when it has returned. -/
def outcome (s : Session Db) (before : List Call) (c : Call) : Ans × Db :=
  (((job c).run (after job s before)).1, ((job c).run (after job s before)).2.db)

def Valid (c : Call) : Prop := (job c).verdict = .valid

instance (c : Call) : Decidable (Valid job c) :=
  inferInstanceAs (Decidable ((job c).verdict = .valid))

/-- What the valid statements alone make of the database. -/
def validDb (db : Db) (calls : List Call) : Db :=
  calls.foldl (fun db c => if Valid job c then ((job c).statement db).2 else db) db

/-- Whether a connection is aborted after a statement with this verdict. -/
def Verdict.poisons (aborted : Bool) : Verdict → Bool
  | .rejected => true
  | .closed => false
  | .valid | .dropped => aborted

/-- A statement was rejected, and the connection has not been lost since. -/
def poisoned (calls : List Call) : Bool :=
  calls.foldl (fun aborted c => (job c).verdict.poisons aborted) false

/-- `p` of every call of the list and the calls before it. -/
def AtEach (p : List Call → Call → Prop) (calls : List Call) : Prop :=
  ∀ before c rest, calls = before ++ c :: rest → p before c

/-- A valid call answers and stores what it does where the failing calls before it are left out. -/
def Unfailed (db : Db) (calls : List Call) : Prop :=
  AtEach (fun before c => Valid job c →
    outcome job ⟨.absent, db⟩ before c =
      outcome job ⟨.absent, db⟩ (before.filter fun d => decide (Valid job d)) c) calls

end

theorem atEach_snoc {p : List Call → Call → Prop} {calls : List Call} {c : Call} :
    AtEach p (calls ++ [c]) ↔ AtEach p calls ∧ p calls c := by
  constructor
  · intro h
    exact ⟨fun before d rest hsplit => h before d (rest ++ [c]) (by simp [hsplit]), h calls c [] rfl⟩
  · rintro ⟨hcalls, hlast⟩ before d rest hsplit
    rcases List.eq_nil_or_concat rest with rfl | ⟨rest', last, rfl⟩
    · obtain ⟨rfl, hd⟩ := List.append_inj' hsplit rfl
      obtain rfl := List.singleton_inj.mp hd
      exact hlast
    · rw [List.concat_eq_append, ← List.cons_append, ← List.append_assoc] at hsplit
      exact hcalls before d rest' (List.append_inj' hsplit rfl).1

theorem atEach_nil (p : List Call → Call → Prop) : AtEach p [] := by
  intro before c rest hsplit
  simp at hsplit

section

variable {job : Call → Job Db Ans}

@[simp] theorem after_snoc (s : Session Db) (calls : List Call) (c : Call) :
    after job s (calls ++ [c]) = ((job c).run (after job s calls)).2 := by
  simp [after]

theorem validDb_snoc (db : Db) (calls : List Call) (c : Call) :
    validDb job db (calls ++ [c]) =
      if Valid job c then ((job c).statement (validDb job db calls)).2 else validDb job db calls := by
  simp [validDb]

@[simp] theorem poisoned_snoc (calls : List Call) (c : Call) :
    poisoned job (calls ++ [c]) = (job c).verdict.poisons (poisoned job calls) := by
  simp [poisoned]

theorem validDb_filter (db : Db) (calls : List Call) :
    validDb job db (calls.filter fun c => decide (Valid job c)) = validDb job db calls := by
  induction calls using List.reverseRecOn with
  | nil => rfl
  | append_singleton calls c ih =>
    rw [List.filter_append, validDb_snoc]
    by_cases hc : Valid job c
    · simp [hc, validDb_snoc, ih]
    · simp [hc, ih]

theorem run_conn {j : Job Db Ans} (s : Session Db) (hconnects : j.connects = true) :
    (j.run s).2.conn = .aborted ↔ j.verdict.poisons (decide (s.conn = .aborted)) = true := by
  unfold Job.run Session.connect Session.transact Verdict.poisons
  cases hconn : s.conn <;> cases hverdict : j.verdict <;> simp [hconnects, hconn]

theorem aborted_iff (db : Db) {calls : List Call} (hreach : ∀ c ∈ calls, (job c).connects = true) :
    (after job ⟨.absent, db⟩ calls).conn = .aborted ↔ poisoned job calls = true := by
  induction calls using List.reverseRecOn with
  | nil => simp [after, poisoned]
  | append_singleton calls c ih =>
    simp only [List.forall_mem_append, List.forall_mem_singleton] at hreach
    have hsame : decide ((after job ⟨.absent, db⟩ calls).conn = .aborted) = poisoned job calls := by
      simp only [ih hreach.1, Bool.decide_eq_true]
    rw [after_snoc, poisoned_snoc, run_conn _ hreach.2, hsame]

/-- Where every statement is valid, each call gives what its statement gives. -/
theorem outcome_filter (db : Db) {before : List Call} {c : Call}
    (hreach : ∀ d ∈ before ++ [c], (job d).connects = true) (hvalid : Valid job c) :
    outcome job ⟨.absent, db⟩ (before.filter fun d => decide (Valid job d)) c =
      (job c).statement (validDb job db before) := by
  have hall : ∀ calls : List Call, (∀ d ∈ calls, (job d).connects = true ∧ Valid job d) →
      (after job ⟨.absent, db⟩ calls).conn ≠ .aborted ∧
        (after job ⟨.absent, db⟩ calls).db = validDb job db calls := by
    intro calls hcalls
    induction calls using List.reverseRecOn with
    | nil => exact ⟨by simp [after], rfl⟩
    | append_singleton calls d ih =>
      simp only [List.forall_mem_append, List.forall_mem_singleton] at hcalls
      obtain ⟨hidle, hdb⟩ := ih hcalls.1
      rw [after_snoc, run_valid hcalls.2.1 hcalls.2.2 hidle, validDb_snoc, if_pos hcalls.2.2, hdb]
      exact ⟨by simp, rfl⟩
  simp only [List.forall_mem_append, List.forall_mem_singleton] at hreach
  obtain ⟨hidle, hdb⟩ := hall (before.filter fun d => decide (Valid job d)) fun d hd =>
    ⟨hreach.1 d (List.mem_filter.mp hd).1, by simpa using (List.mem_filter.mp hd).2⟩
  rw [outcome, run_valid hreach.2 hvalid hidle, hdb, validDb_filter]

theorem db_of_unfailed {db : Db} {calls : List Call} (hreach : ∀ c ∈ calls, (job c).connects = true)
    (h : Unfailed job db calls) : (after job ⟨.absent, db⟩ calls).db = validDb job db calls := by
  induction calls using List.reverseRecOn with
  | nil => rfl
  | append_singleton calls c ih =>
    obtain ⟨hcalls, hlast⟩ := atEach_snoc.mp h
    have hdb := ih (fun d hd => hreach d (List.mem_append_left _ hd)) hcalls
    rw [after_snoc, validDb_snoc]
    by_cases hvalid : Valid job c
    · rw [if_pos hvalid]
      exact congrArg Prod.snd ((hlast hvalid).trans (outcome_filter db hreach hvalid))
    · rw [if_neg hvalid, run_not_valid _ hvalid, hdb]

/-- **What a rejected statement does to the calls after it.** -/
theorem unfailed_iff (db : Db) {calls : List Call} (hreach : ∀ c ∈ calls, (job c).connects = true) :
    Unfailed job db calls ↔ AtEach (fun before c => Valid job c → poisoned job before = true →
      (job c).statement (validDb job db before) =
        ((job c).failed, validDb job db before)) calls := by
  induction calls using List.reverseRecOn with
  | nil => exact iff_of_true (atEach_nil _) (atEach_nil _)
  | append_singleton calls c ih =>
    have hcalls : ∀ d ∈ calls, (job d).connects = true :=
      fun d hd => hreach d (List.mem_append_left _ hd)
    rw [Unfailed, atEach_snoc, atEach_snoc, ← ih hcalls]
    refine and_congr_right fun hunfailed => forall_congr' fun hvalid => ?_
    have hdb := db_of_unfailed hcalls hunfailed
    rw [outcome_filter db hreach hvalid]
    by_cases hpoisoned : poisoned job calls = true
    · -- Every statement on an aborted connection fails.
      have hrun := run_aborted (j := job c) ((aborted_iff db hcalls).mpr hpoisoned)
      rw [outcome, hrun.1, hrun.2, hdb]
      simp only [hpoisoned, true_implies]
      exact eq_comm
    · have hidle := mt (aborted_iff db hcalls).mp hpoisoned
      rw [outcome, run_valid (hreach c (by simp)) hvalid hidle, hdb]
      simp [hpoisoned]

end

end Swarm.Lib
