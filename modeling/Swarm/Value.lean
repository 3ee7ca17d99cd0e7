import Swarm.Lib.Reading
import Swarm.Python

/-! # JSON values as the readers of the state files convert them -/

namespace Swarm

/-- What `json.loads` returns, with its floats exact. -/
inductive Value
  | null
  | bool (b : Bool)
  | int (n : Int)
  | float (x : Num)
  | str (s : String)
  | arr (items : List Value)
  | obj (entries : List (String × Value))

/-- The text of a state file, by what reading and `json.loads` make of it. -/
inductive Content
  | absent
  /-- An `OSError`, or a `ValueError`: not UTF-8, or not JSON. -/
  | unreadable
  /-- A `RecursionError`: more brackets inside each other than the stack takes. -/
  | tooDeep
  | document (v : Value)

/-- What leaves a constructor. -/
inductive Escape
  | program (e : PyError)
  | recursionError
  deriving DecidableEq, Repr

namespace Value

def typeName : Value → String
  | .null => "NoneType"
  | .bool _ => "bool"
  | .int _ => "int"
  | .float _ => "float"
  | .str _ => "str"
  | .arr _ => "list"
  | .obj _ => "dict"

def truthy : Value → Bool
  | .null => false
  | .bool b => b
  | .int n => n != 0
  | .float x => x != .finite 0
  | .str s => s != ""
  | .arr items => !items.isEmpty
  | .obj entries => !entries.isEmpty

/-- `a or b` -/
def or (a b : Value) : Value := if a.truthy then a else b

/-- `for x in v` -/
def iter : Value → Except PyError (List Value)
  | .arr items => .ok items
  | .str s => .ok (s.toList.map fun c => .str c.toString)
  | .obj entries => .ok (entries.map fun kv => .str kv.1)
  | v => .error (.typeError ("'" ++ v.typeName ++ "' object is not iterable"))

/-- `d.get(key)` -/
def get (d : List (String × Value)) (key : String) : Value := (d.lookup key).getD .null

/-! ## Shapes -/

def int? : Value → Option Int
  | .int n => some n
  | _ => none

/-- A JSON number. -/
def num? : Value → Option Num
  | .int n => some (.finite n)
  | .float x => some x
  | _ => none

def str? : Value → Option String
  | .str s => some s
  | _ => none

def dict? : Value → Option (List (String × Value))
  | .obj entries => some entries
  | _ => none

def items? : Value → Option (List Value)
  | .arr items => some items
  | _ => none

def iterable : Value → Bool
  | .arr _ | .str _ | .obj _ => true
  | _ => false

theorem iter_ok_iff (v : Value) : (∃ items, v.iter = .ok items) ↔ v.iterable = true := by
  cases v <;> simp [iter, iterable]

theorem iter_dicts {v : Value} {items : List Value} (h : v.iter = .ok items) :
    items.filterMap dict? = (v.items?.getD []).filterMap dict? := by
  unfold iter at h
  split at h
  · cases h
    rfl
  · cases h
    simp [items?, List.filterMap_map, Function.comp_def, dict?]
  · cases h
    simp [items?, List.filterMap_map, Function.comp_def, dict?]
  · cases h

end Value

/-! ## Conversions -/

/-- `float(n)`: the nearest of the 53-bit floats, ties to even. -/
def floatOfInt (n : Int) : Except PyError Num :=
  let e := n.natAbs.log2 - 52
  let q : ℚ := Lib.roundHalfEven (n / 2 ^ e) * 2 ^ e
  if |q| < 2 ^ 1024 then .ok (.finite q) else .error (.overflowError "int too large to convert to float")

/-- What Python makes of a text, and the text that `repr` gives a value. -/
structure Builtins where
  int : String → Option Int
  float : String → Option Num
  repr : Value → String
  repr_ne : ∀ v, repr v ≠ ""

/-- No text is a number, and `repr` names the type. -/
def noNumbers : Builtins where
  int _ := none
  float _ := none
  repr v := v.typeName ++ "()"
  repr_ne v := by simp

namespace Value

variable (py : Builtins)

/-- `int(v)` -/
def toInt : Value → Except PyError Int
  | .bool b => .ok (if b then 1 else 0)
  | .int n => .ok n
  | .float x => x.int
  | .str s =>
    match py.int s with
    | some n => .ok n
    | none => .error (.valueError ("invalid literal for int() with base 10: " ++ py.repr (.str s)))
  | v => .error (.typeError ("int() argument must be a string, a bytes-like object or a real number, not '" ++
      v.typeName ++ "'"))

/-- `float(v)` -/
def toFloat : Value → Except PyError Num
  | .bool b => .ok (.finite (if b then 1 else 0))
  | .int n => floatOfInt n
  | .float x => .ok x
  | .str s =>
    match py.float s with
    | some x => .ok x
    | none => .error (.valueError ("could not convert string to float: " ++ py.repr (.str s)))
  | v => .error (.typeError ("float() argument must be a string or a real number, not '" ++ v.typeName ++ "'"))

/-- `str(v)` -/
def toStr : Value → String
  | .str s => s
  | v => py.repr v

def optFloat : Value → Except PyError (Option Num)
  | .null => .ok none
  | v => (v.toFloat py).map some

def optInt : Value → Except PyError (Option Int)
  | .null => .ok none
  | v => (v.toInt py).map some

end Value

/-! ## What the conversions make of a field -/

section Readings

open Lib Lib.Reading

variable (py : Builtins)

/-- `except (KeyError, ValueError)` -/
def caught : PyError → Bool
  | .keyError _ | .valueError _ => true
  | _ => false

/-- A text is refused where it is no number, and taken for one where it is. -/
def textReading {α : Type} [DecidableEq α] (parse : String → Option α) (default : α)
    (s : String) : Reading :=
  match parse s with
  | none => .refused
  | some x => if x = default then .faithful else .changed

/-- A list or a dict: only an empty one counts as missing. -/
def containerReading (empty : Bool) : Reading := if empty then .faithful else .raises

/-- An int as a float. -/
def wideReading (n : Int) : Reading :=
  match floatOfInt n with
  | .ok x => if x = .finite n then .faithful else .changed
  | .error _ => .raises

/-- `int(v or default)`, for a field that holds an int. -/
def intReading (default : Int) : Value → Reading
  | .null => .faithful
  | .bool b => if b = true ∧ default ≠ 1 then .changed else .faithful
  | .int n => if n = 0 ∧ default ≠ 0 then .changed else .faithful
  | .float x =>
    if x = .finite 0 then .faithful
    else
      match x with
      | .finite q => if q.num.tdiv q.den = default then .faithful else .changed
      | .inf _ => .raises
      | .nan => .refused
  | .str s => if s = "" then .faithful else textReading py.int default s
  | .arr items => containerReading items.isEmpty
  | .obj entries => containerReading entries.isEmpty

/-- `float(v or 0.0)`, for a field that holds a number. -/
def floatReading : Value → Reading
  | .null => .faithful
  | .bool b => if b then .changed else .faithful
  | .int n => if n = 0 then .faithful else wideReading n
  | .float _ => .faithful
  | .str s => if s = "" then .faithful else textReading py.float (.finite 0) s
  | .arr items => containerReading items.isEmpty
  | .obj entries => containerReading entries.isEmpty

/-- `_opt_float`: only null counts as missing. -/
def optFloatReading : Value → Reading
  | .null | .float _ => .faithful
  | .bool _ => .changed
  | .int n => wideReading n
  | .str s => if (py.float s).isSome then .changed else .refused
  | .arr _ | .obj _ => .raises

/-- `_opt_int` -/
def optIntReading : Value → Reading
  | .null | .int _ => .faithful
  | .bool _ => .changed
  | .float x =>
    match x with
    | .finite _ => .changed
    | .inf _ => .raises
    | .nan => .refused
  | .str s => if (py.int s).isSome then .changed else .refused
  | .arr _ | .obj _ => .raises

theorem textReading_eq {α : Type} [DecidableEq α] {r : Except PyError α} {parse : String → Option α}
    {s : String} (default : α) (hok : ∀ x, parse s = some x → r = .ok x)
    (herror : parse s = none → ∃ text, r = .error (.valueError text)) :
    of caught r default = textReading parse default s := by
  unfold textReading
  cases hparse : parse s with
  | some x => rw [hok x hparse, of_ok]
  | none =>
    obtain ⟨text, he⟩ := herror hparse
    exact of_eq_refused he rfl

theorem toInt_str {s : String} :
    (∀ n, py.int s = some n → (Value.str s).toInt py = .ok n) ∧
      (py.int s = none → ∃ text, (Value.str s).toInt py = .error (.valueError text)) := by
  unfold Value.toInt
  constructor
  · intro n hn
    simp [hn]
  · intro hn
    simp [hn]

theorem toFloat_str {s : String} :
    (∀ x, py.float s = some x → (Value.str s).toFloat py = .ok x) ∧
      (py.float s = none → ∃ text, (Value.str s).toFloat py = .error (.valueError text)) := by
  unfold Value.toFloat
  constructor
  · intro x hx
    simp [hx]
  · intro hx
    simp [hx]

theorem wideReading_eq (n : Int) : of caught (floatOfInt n) (.finite n) = wideReading n := by
  unfold wideReading floatOfInt
  dsimp only
  split
  · exact of_ok _ _
  · rfl

theorem or_false {v : Value} (h : v.truthy = false) (default : Value) : v.or default = default := by
  simp [Value.or, h]

theorem or_true {v : Value} (h : v.truthy = true) (default : Value) : v.or default = v := by
  simp [Value.or, h]

theorem containerReading_eq {α : Type} [DecidableEq α] {v default : Value}
    {read : Value → Except PyError α} {x : α} (hdefault : read default = .ok x)
    (hraises : ∃ text, read v = .error (.typeError text)) :
    of caught (read (v.or default)) x = containerReading (!v.truthy) := by
  unfold containerReading
  cases htruthy : v.truthy with
  | false => rw [or_false htruthy, hdefault, of_same, Bool.not_false, if_pos rfl]
  | true =>
    obtain ⟨text, htext⟩ := hraises
    rw [or_true htruthy, htext]
    rfl

theorem intReading_eq (default : Int) (v : Value) :
    of caught ((v.or (.int default)).toInt py) (v.int?.getD default) = intReading py default v := by
  cases v with
  | null => exact of_same default
  | bool b =>
    cases b with
    | false => exact of_same default
    | true =>
      unfold intReading
      dsimp only
      by_cases hdefault : default = 1
      · rw [if_neg (by simp [hdefault]), hdefault]
        -- `True` is the integer 1, so with the default 1 nothing tells them apart.
        exact of_same 1
      · rw [if_pos ⟨rfl, hdefault⟩]
        exact (of_ok 1 default).trans (if_neg fun h => hdefault h.symm)
  | int n =>
    unfold intReading
    dsimp only
    -- Zero is false, and `or` puts the default in its place.
    by_cases hn : n = 0
    · subst hn
      by_cases hdefault : default = 0
      · rw [if_neg (by simp [hdefault]), hdefault]
        exact of_same 0
      · rw [if_pos ⟨rfl, hdefault⟩]
        exact (of_ok default 0).trans (if_neg hdefault)
    · rw [if_neg (by simp [hn]), or_true (by simpa [Value.truthy] using hn)]
      exact of_same n
  | float x =>
    unfold intReading
    dsimp only
    by_cases hx : x = .finite 0
    · rw [if_pos hx, or_false (by simp [Value.truthy, hx])]
      exact of_same default
    · rw [if_neg hx, or_true (by simpa [Value.truthy] using hx)]
      cases x with
      | finite q => exact of_ok _ default
      | inf negative => rfl
      | nan => rfl
  | str s =>
    unfold intReading
    dsimp only
    by_cases hs : s = ""
    · rw [if_pos hs, or_false (by simp [Value.truthy, hs])]
      exact of_same default
    · rw [if_neg hs, or_true (by simpa [Value.truthy] using hs)]
      exact textReading_eq default (toInt_str py).1 (toInt_str py).2
  | arr items =>
    refine (containerReading_eq (x := default) rfl ⟨_, rfl⟩).trans ?_
    simp [Value.truthy, intReading]
  | obj entries =>
    refine (containerReading_eq (x := default) rfl ⟨_, rfl⟩).trans ?_
    simp [Value.truthy, intReading]

theorem floatReading_eq (v : Value) :
    of caught ((v.or (.float (.finite 0))).toFloat py) (v.num?.getD (.finite 0)) =
      floatReading py v := by
  cases v with
  | null => exact of_same _
  | bool b =>
    cases b with
    | false => exact of_same _
    | true => exact of_ok (Num.finite 1) (.finite 0)
  | int n =>
    unfold floatReading
    dsimp only
    by_cases hn : n = 0
    · subst hn
      exact of_same (Num.finite 0)
    · rw [if_neg hn, or_true (by simpa [Value.truthy] using hn), ← wideReading_eq]
      rfl
  | float x =>
    by_cases hx : x = .finite 0
    · subst hx
      exact of_same (Num.finite 0)
    · rw [or_true (by simpa [Value.truthy] using hx)]
      exact of_same x
  | str s =>
    unfold floatReading
    dsimp only
    by_cases hs : s = ""
    · subst hs
      exact of_same (Num.finite 0)
    · rw [if_neg hs, or_true (by simpa [Value.truthy] using hs)]
      exact textReading_eq _ (toFloat_str py).1 (toFloat_str py).2
  | arr items =>
    refine (containerReading_eq (x := Num.finite 0) rfl ⟨_, rfl⟩).trans ?_
    simp [Value.truthy, floatReading]
  | obj entries =>
    refine (containerReading_eq (x := Num.finite 0) rfl ⟨_, rfl⟩).trans ?_
    simp [Value.truthy, floatReading]

theorem optFloatReading_eq (v : Value) :
    of caught (v.optFloat py) v.num? = optFloatReading py v := by
  cases v with
  | null => exact of_same none
  | bool b => exact of_ok (some (Num.finite _)) none
  | int n => exact (of_map (Option.some_injective Num) _ _).trans (wideReading_eq n)
  | float x => exact of_same (some x)
  | str s =>
    unfold optFloatReading
    dsimp only
    cases hs : py.float s with
    | some x =>
      have hread : (Value.str s).optFloat py = .ok (some x) :=
        congrArg (Except.map some) ((toFloat_str py).1 x hs)
      rw [hread]
      exact of_ok _ none
    | none =>
      obtain ⟨text, htext⟩ := (toFloat_str py).2 hs
      exact of_eq_refused (congrArg (Except.map some) htext) rfl
  | arr items => rfl
  | obj entries => rfl

theorem optIntReading_eq (v : Value) : of caught (v.optInt py) v.int? = optIntReading py v := by
  cases v with
  | null => exact of_same none
  | bool b => exact of_ok (some (_ : Int)) none
  | int n => exact of_same (some n)
  | float x =>
    cases x with
    | finite q => exact of_ok (some (_ : Int)) none
    | inf negative => rfl
    | nan => rfl
  | str s =>
    unfold optIntReading
    dsimp only
    cases hs : py.int s with
    | some n =>
      have hread : (Value.str s).optInt py = .ok (some n) :=
        congrArg (Except.map some) ((toInt_str py).1 n hs)
      rw [hread]
      exact of_ok _ none
    | none =>
      obtain ⟨text, htext⟩ := (toInt_str py).2 hs
      exact of_eq_refused (congrArg (Except.map some) htext) rfl
  | arr items => rfl
  | obj entries => rfl

/-! ### A field of its shape is not refused -/

theorem wideReading_ne_refused (n : Int) : wideReading n ≠ .refused := by
  unfold wideReading
  split
  · split <;> decide
  · decide

theorem intReading_ne_refused (default : Int) {v : Value} (h : v.int?.isSome = true) :
    intReading py default v ≠ .refused := by
  cases v with
  | int n =>
    unfold intReading
    dsimp only
    split <;> decide
  | _ => cases h

theorem floatReading_ne_refused {v : Value} (h : v.num?.isSome = true) :
    floatReading py v ≠ .refused := by
  cases v with
  | int n =>
    unfold floatReading
    dsimp only
    split
    · decide
    · exact wideReading_ne_refused n
  | float x => exact nofun
  | _ => cases h

theorem optFloatReading_ne_refused {v : Value} (h : v = .null ∨ v.num?.isSome = true) :
    optFloatReading py v ≠ .refused := by
  cases v with
  | null => exact nofun
  | int n => exact wideReading_ne_refused n
  | float x => exact nofun
  | _ => simp [Value.num?] at h

theorem optIntReading_ne_refused {v : Value} (h : v = .null ∨ v.int?.isSome = true) :
    optIntReading py v ≠ .refused := by
  cases v with
  | null => exact nofun
  | int n => exact nofun
  | _ => simp [Value.int?] at h

end Readings

end Swarm
