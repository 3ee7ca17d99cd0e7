import Mathlib.Data.List.Infix
import Mathlib.Data.Rat.Defs
import Swarm.Lib.Rounding

/-! # Python values and exceptions that the modules share -/

namespace Swarm

/-- What the code raises on its own account, with the text that `str` gives. -/
inductive PyError
  | valueError (text : String)
  | typeError (text : String)
  | attributeError (text : String)
  | overflowError (text : String)
  | keyError (key : String)
  | integrityError (text : String)
  | databaseError (text : String)
  | assertionError
  deriving DecidableEq, Repr

def PyError.text : PyError → String
  | .valueError t | .typeError t | .attributeError t | .overflowError t => t
  | .integrityError t | .databaseError t => t
  | .keyError k => "'" ++ k ++ "'"
  | .assertionError => ""

/-! ## What a call lets out -/

structure TransientError where
  message : String
  status : Option Int
  reason : Option String
  retryAfterS : Option ℚ
  deriving DecidableEq, Repr

inductive RaisedClass
  | transient (e : TransientError)
  | abortRequested
  | other
  deriving DecidableEq, Repr

/-- An exception of a conductor by what its handlers read of it: `status` and `reason` are the
attributes that `classify_error` looks for, `retryAfterS` the hint in its headers. -/
structure Raised where
  cls : RaisedClass
  status : Option Int
  reason : Option String
  retryAfterS : Option ℚ
  text : String
  repr : String
  deriving DecidableEq, Repr

/-- What leaves a loop: an exception that it was given, the `TransientError` of a spent or
aborted `resilient_call`, or an error of the program itself. -/
inductive Exn
  | raised (e : Raised)
  | transient (e : TransientError)
  | program (e : PyError)
  deriving DecidableEq, Repr

/-- The exception is `AbortRequested`. -/
def Exn.isAbort : Exn → Bool
  | .raised e => e.cls = .abortRequested
  | .transient _ | .program _ => false

/-- A TypeError of the interpreter. Its text has single quotes, so `repr` puts it in double ones. -/
def Raised.typeError (text : String) : Raised :=
  ⟨.other, none, none, none, text, "TypeError(\"" ++ text ++ "\")"⟩

/-! ## The abort marker -/

def abortMarkerPath (worktreeRoot teammate : String) : String :=
  worktreeRoot ++ "/.claude/abort-" ++ teammate

/-- `AbortRequested(marker, teammate)`, for a name that `repr` puts in single quotes as it is. -/
def abortRequested (marker teammate : String) : Raised :=
  let text := "abort marker present for '" ++ teammate ++ "' at " ++ marker
  ⟨.abortRequested, none, none, none, text, "AbortRequested(\"" ++ text ++ "\")"⟩

/-! ## Numbers -/

/-- `f"{q:.4f}"` for four digits. -/
def fixed (digits : Nat) (q : ℚ) : String :=
  let scaled := (Lib.roundHalfEven (|q| * 10 ^ digits)).toNat
  let fraction := toString (scaled % 10 ^ digits)
  (if q < 0 then "-" else "") ++ toString (scaled / 10 ^ digits) ++ "." ++
    String.ofList (List.replicate (digits - fraction.length) '0') ++ fraction

/-- A float, exact where it is finite. -/
inductive Num
  | finite (q : ℚ)
  | inf (negative : Bool)
  | nan
  deriving DecidableEq, Repr

namespace Num

def isFinite : Num → Bool
  | .finite _ => true
  | _ => false

/-- `a < b`. A comparison with nan is false. -/
def lt : Num → Num → Bool
  | .finite a, .finite b => a < b
  | .finite _, .inf negative => !negative
  | .inf negative, .finite _ => negative
  | .inf a, .inf b => a && !b
  | _, _ => false

/-- `<=` of floats: a nan compares with nothing. -/
def le : Num → Num → Bool
  | .finite a, .finite b => a ≤ b
  | .finite _, .inf negative => !negative
  | .inf negative, .finite _ => negative
  | .inf a, .inf b => a || !b
  | _, _ => false

def add : Num → Num → Num
  | .finite a, .finite b => .finite (a + b)
  | .finite _, .inf negative => .inf negative
  | .inf negative, .finite _ => .inf negative
  | .inf a, .inf b => if a = b then .inf a else .nan
  | _, _ => .nan

def neg : Num → Num
  | .finite a => .finite (-a)
  | .inf negative => .inf !negative
  | .nan => .nan

def sub (a b : Num) : Num := a.add b.neg

/-- `round(a, digits)`. -/
def round (digits : Nat) : Num → Num
  | .finite a => .finite (Lib.roundTo digits a)
  | a => a

/-- `int(a)`, which drops the fraction. -/
def int : Num → Except PyError Int
  | .finite q => .ok (q.num.tdiv q.den)
  | .inf _ => .error (.overflowError "cannot convert float infinity to integer")
  | .nan => .error (.valueError "cannot convert float NaN to integer")

@[simp] theorem int_intCast (n : Int) : (finite (n : ℚ)).int = .ok n := by simp [int]

@[simp] theorem add_finite (a b : ℚ) : (finite a).add (finite b) = finite (a + b) := rfl

theorem not_le_of_lt {a b : Num} (h : a.lt b = true) : b.le a = false := by
  cases a <;> cases b <;> simp_all [lt, le]

theorem lt_of_le_of_lt {a b c : Num} (h : a.le b = true) (h' : b.lt c = true) : a.lt c = true := by
  cases a with
  | nan => simp [le] at h
  | finite p =>
    cases b with
    | nan => simp [le] at h
    | finite q =>
      cases c with
      | nan => simp [lt] at h'
      | finite r =>
        simp only [le, lt, decide_eq_true_eq] at h h' ⊢
        exact h.trans_lt h'
      | inf negative => exact h'
    | inf negative => cases c <;> simp_all [le, lt]
  | inf negative =>
    cases b with
    | nan => simp [le] at h
    | finite q =>
      simp only [le] at h
      subst h
      cases c <;> simp_all [lt]
    | inf negative' => cases c <;> simp_all [le, lt]

end Num

/-! ## JSON -/

/-- What `json.loads` returns. A float is held by the text that SQLite gives it. -/
inductive Json
  | null
  | bool (b : Bool)
  | int (n : Int)
  | float (text : String)
  | str (s : String)
  | arr (items : List Json)
  | obj (entries : List (String × Json))

namespace Json

def ofStrs (l : List String) : Json := .arr (l.map .str)

/-- `bool(value)`. -/
def truthy : Json → Bool
  | .null => false
  | .bool b => b
  | .int n => n != 0
  | .float t => t != "0.0" && t != "-0.0"
  | .str s => s != ""
  | .arr l => !l.isEmpty
  | .obj e => !e.isEmpty

/-- `for x in v`: a string gives its characters, an object its keys. -/
def iter : Json → Except PyError (List Json)
  | .arr l => .ok l
  | .str s => .ok (s.toList.map fun c => .str c.toString)
  | .obj e => .ok (e.map fun kv => .str kv.1)
  | _ => .error (.typeError "object is not iterable")

/-- `s in v`: for a string the substring test. -/
def contains (v : Json) (s : String) : Except PyError Bool :=
  match v with
  | .arr l => .ok (l.any fun x => match x with | .str t => t == s | _ => false)
  | .str t => .ok (decide (s.toList <:+: t.toList))
  | .obj e => .ok (e.any (·.1 == s))
  | _ => .error (.typeError "argument is not iterable")

def str? : Json → Option String
  | .str s => some s
  | _ => none

def dict? : Json → Option (List (String × Json))
  | .obj e => some e
  | _ => none

@[simp] theorem filterMap_dict? (dicts : List (List (String × Json))) :
    (dicts.map obj).filterMap dict? = dicts := by
  have hsome : dict? ∘ obj = some := rfl
  rw [List.filterMap_map, hsome, List.filterMap_some]

/-- `a or b` -/
def or (a b : Json) : Json := if a.truthy then a else b

/-- `d.get(key)` -/
def get (d : List (String × Json)) (key : String) : Json := (d.lookup key).getD .null

/-- Whether the value can be a key or a member of a set. -/
def hashable : Json → Bool
  | .arr _ | .obj _ => false
  | _ => true

/-- `dict(v)`, as the pairs that go into it. -/
def asDict : Json → Except PyError (List (Json × Json))
  | .obj e => .ok (e.map fun kv => (.str kv.1, kv.2))
  | v => do
    let items ← v.iter
    items.zipIdx.mapM fun (item, i) =>
      let element := "dictionary update sequence element #" ++ toString i
      match item.iter with
      | .error _ => .error (.typeError ("cannot convert " ++ element ++ " to a sequence"))
      | .ok [k, x] => if k.hashable then .ok (k, x) else .error (.typeError "unhashable type")
      | .ok l =>
        .error (.valueError (element ++ " has length " ++ toString l.length ++ "; 2 is required"))

@[simp] theorem iter_ofStrs (l : List String) : (ofStrs l).iter = .ok (l.map .str) := rfl

@[simp] theorem truthy_ofStrs (l : List String) : (ofStrs l).truthy = !l.isEmpty := by
  cases l <;> rfl

end Json

/-- How `repr` writes a str and a float. -/
structure Spelling where
  quote : String → String
  float : String → String

namespace Json

variable (sp : Spelling)

mutual

/-- `repr(value)`. -/
def repr : Json → String
  | .null => "None"
  | .bool b => if b then "True" else "False"
  | .int n => toString n
  | .float t => sp.float t
  | .str s => sp.quote s
  | .arr items => "[" ++ ", ".intercalate (reprItems items) ++ "]"
  | .obj entries => "\x7b" ++ ", ".intercalate (reprEntries entries) ++ "\x7d"

def reprItems : List Json → List String
  | [] => []
  | v :: rest => repr v :: reprItems rest

def reprEntries : List (String × Json) → List String
  | [] => []
  | (k, v) :: rest => (sp.quote k ++ ": " ++ repr v) :: reprEntries rest

end

/-- `str(v)` -/
def toStr (v : Json) : String :=
  match v with
  | .str s => s
  | v => v.repr sp

@[simp] theorem toStr_str (s : String) : toStr sp (.str s) = s := rfl

end Json

/-- The text of a JSON column: what it decodes to, or text that is not JSON. -/
inductive Text
  | json (v : Json)
  | raw (s : String)

namespace Text

/-- A non-empty string is true. No JSON text is empty. -/
def truthy : Text → Bool
  | .json _ => true
  | .raw s => s != ""

/-- `json.loads`. -/
def loads : Text → Except PyError Json
  | .json v => .ok v
  | .raw _ => .error (.valueError "Expecting value")

end Text

end Swarm
