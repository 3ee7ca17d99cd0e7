import Mathlib.Data.Rat.Defs
import Swarm.Python

/-! # The price of a call, as `cost.py` computes it -/

namespace Swarm.Cost

/-- USD for a million tokens of each kind. -/
structure ModelPrice where
  input : ℚ
  cacheWrite5m : ℚ
  cacheWrite1h : ℚ
  cacheRead : ℚ
  output : ℚ
  deriving DecidableEq, Repr

def MODEL_PRICING : List (String × ModelPrice) :=
  [("claude-opus-4-8", ⟨5, 6.25, 10, 0.5, 15⟩),
    ("claude-opus-4-7", ⟨5, 6.25, 10, 0.5, 15⟩),
    ("claude-sonnet-4-6", ⟨3, 3.75, 6, 0.3, 15⟩),
    ("claude-haiku-4-5-20251001", ⟨0.8, 1, 1.6, 0.08, 4⟩),
    ("claude-haiku-4-5", ⟨0.8, 1, 1.6, 0.08, 4⟩)]

def MODEL_ALIASES : List (String × String) :=
  [("opus", "claude-opus-4-7"), ("sonnet", "claude-sonnet-4-6"), ("haiku", "claude-haiku-4-5"),
    ("haiku-20251001", "claude-haiku-4-5-20251001")]

/-- An alias stands for its model, and any other name for itself. -/
def resolveModel (nameOrAlias : String) : String :=
  (MODEL_ALIASES.lookup nameOrAlias).getD nameOrAlias

/-- The counts of a call, all given. -/
structure Tokens where
  input : Int
  cacheRead : Int
  cacheWrite5m : Int
  cacheWrite1h : Int
  output : Int
  deriving DecidableEq, Repr

/-- `price_call`. A model without a row costs nothing, whatever the counts are; `none` is a count
that is None, which does not multiply. -/
def priceCall (model : String) (tokens : Option Tokens) : Except Raised ℚ :=
  match MODEL_PRICING.lookup (resolveModel model) with
  | none => .ok 0
  | some p =>
    match tokens with
    | none => .error (.typeError "unsupported operand type(s) for *: 'NoneType' and 'float'")
    | some n => .ok ((n.input * p.input + n.cacheRead * p.cacheRead + n.cacheWrite5m * p.cacheWrite5m +
        n.cacheWrite1h * p.cacheWrite1h + n.output * p.output) / 1000000)

end Swarm.Cost
