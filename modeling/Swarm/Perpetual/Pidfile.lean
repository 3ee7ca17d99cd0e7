import Mathlib.Algebra.Group.Nat.Defs
import Mathlib.Data.List.Infix
import Mathlib.Logic.Function.Basic
import Swarm.Lib.Runs

/-!
# The pidfile of a team

Every process that is alive may call `acquire` and `release`, one call at a time. A step is one
thing that a call does to the file system, or one look at another process.
-/

namespace Swarm.Perpetual.Pidfile

open Swarm.Lib

/-! ## The text of the file -/

def space (c : Char) : Bool :=
  c = ' ' || 9 ≤ c.toNat && c.toNat ≤ 13 || 28 ≤ c.toNat && c.toNat ≤ 31

def strip (text : List Char) : List Char :=
  ((text.dropWhile space).reverse.dropWhile space).reverse

/-- Digits, with single underscores between them. -/
def digits (text : List Char) : Option Nat :=
  if text ≠ [] ∧ (text.all fun c => c.isDigit || c == '_') ∧ text.head? ≠ some '_' ∧
      text.getLast? ≠ some '_' ∧ ¬ ['_', '_'] <:+: text then
    some (Nat.ofDigitChars 10 (text.filter (· ≠ '_')) 0)
  else none

/-- `int(text.strip())`, for ASCII text. -/
def int (text : List Char) : Option Int :=
  match strip text with
  | '-' :: ds => (digits ds).map fun n => -(n : Int)
  | '+' :: ds => (digits ds).map fun n => (n : Int)
  | ds => (digits ds).map fun n => (n : Int)

/-- A write at the start of a file that is as long as it was. -/
def overwrite (text old : List Char) : List Char := text ++ old.drop text.length

/-! ## Processes and the disk -/

/-- A pid as the kernel gives it. -/
structure Pid where
  val : Nat
  pos : 0 < val
  small : val < 2 ^ 31
  deriving DecidableEq

def Pid.str (p : Pid) : List Char := Nat.toDigits 10 p.val

/-- The file that the path leads to, and what each file holds. A file that was unlinked may still
be open. -/
structure Disk where
  link : Option Nat
  data : Nat → List Char
  next : Nat

/-- Where a process stands in `acquire` or `release`. -/
inductive Pc
  | idle
  /-- `acquire` saw a pidfile. -/
  | reading
  | checking (owner : Int)
  | opening
  /-- `acquire` has emptied the file. -/
  | putting (file : Nat)
  /-- `release` saw a pidfile. -/
  | rereading
  | unlinking
  deriving DecidableEq

/-- `holds` from the return of an `acquire` to the return of a `release`. -/
structure Proc where
  pc : Pc
  holds : Bool
  deriving DecidableEq

structure State where
  alive : Pid → Bool
  procs : Pid → Proc
  disk : Disk

/-- `_read_pid` -/
def Disk.readPid (d : Disk) : Option Int :=
  match d.link with
  | none => none
  | some file => int (d.data file)

/-- `_pid_alive`, with `none` for the `OverflowError` of `os.kill`. -/
def pidAlive (alive : Pid → Bool) (pid : Int) : Option Bool :=
  if pid ≤ 0 then some false
  else if h : 0 < pid.toNat ∧ pid.toNat < 2 ^ 31 then some (alive ⟨pid.toNat, h.1, h.2⟩)
  else none

def State.goto (s : State) (p : Pid) (pc : Pc) : State :=
  { s with procs := Function.update s.procs p { s.procs p with pc := pc } }

def State.leave (s : State) (p : Pid) (holds : Bool) : State :=
  { s with procs := Function.update s.procs p ⟨.idle, holds⟩ }

/-- `open(path, "w")`: the file that is there is emptied, or a new one is made. -/
def Disk.truncate (d : Disk) : Nat × Disk :=
  match d.link with
  | some file => (file, { d with data := Function.update d.data file [] })
  | none => (d.next, ⟨some d.next, Function.update d.data d.next [], d.next + 1⟩)

/-! ## Steps -/

inductive Label
  | start (p : Pid)
  | exit (p : Pid)
  | acquire (p : Pid)
  | release (p : Pid)
  | go (p : Pid)

/-- Where `acquire` goes when it read `owner`. -/
def afterRead : Option Int → Pc
  | none => .opening
  | some owner => .checking owner

/-- The next step of the call that `p` is in. -/
def advance (p : Pid) (s : State) : Option State :=
  match (s.procs p).pc with
  | .idle => none
  | .reading => some (s.goto p (afterRead s.disk.readPid))
  | .checking owner =>
    match pidAlive s.alive owner with
    | none => some (s.goto p .idle)
    | some alive =>
      -- `DuplicateTeamError`
      if alive && owner != p.val then some (s.goto p .idle) else some (s.goto p .opening)
  | .opening => some { s.goto p (.putting s.disk.truncate.1) with disk := s.disk.truncate.2 }
  | .putting file =>
    some { s.leave p true with
      disk := { s.disk with data := Function.update s.disk.data file (overwrite p.str (s.disk.data file)) } }
  | .rereading =>
    if s.disk.readPid = some (p.val : Int) then some (s.goto p .unlinking) else some (s.leave p false)
  | .unlinking => some { s.leave p false with disk := { s.disk with link := none } }

/-- A call starts with its look for the file. A pid may be given to a new process. -/
def step (l : Label) (s : State) : Option State :=
  match l with
  | .start p =>
    if s.alive p then none
    else some { s.leave p false with alive := Function.update s.alive p true }
  | .exit p =>
    if s.alive p then some { s.leave p false with alive := Function.update s.alive p false }
    else none
  | .acquire p =>
    if s.alive p && (s.procs p).pc = .idle then
      some (s.goto p (if s.disk.link.isSome then .reading else .opening))
    else none
  | .release p =>
    if s.alive p && (s.procs p).pc = .idle then
      some (if s.disk.link.isSome then s.goto p .rereading else s.leave p false)
    else none
  | .go p => if s.alive p then advance p s else none

/-- No call has begun, whatever the disk holds and whoever is alive. -/
def State.Fresh (s : State) : Prop :=
  (∀ p, s.procs p = ⟨.idle, false⟩) ∧ ∀ file, s.disk.link = some file → file < s.disk.next

/-- The process is alive, and its `acquire` has returned and its `release` has not. -/
def State.Holder (s : State) (p : Pid) : Prop := s.alive p = true ∧ (s.procs p).holds = true

/-- Two processes that hold the pidfile are one. -/
def Exclusive (s : State) : Prop := ∀ p q, s.Holder p → s.Holder q → p = q

end Swarm.Perpetual.Pidfile
