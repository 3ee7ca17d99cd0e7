import Mathlib.Data.List.MinMax
import Mathlib.Data.Prod.Lex
import Swarm.Python

/-! # The lanes and their headroom, as `usage.py` reports them -/

namespace Swarm.Usage

def DEFAULT_WINDOW_S : Int := 18000

inductive Lane
  | claudeCodeMax
  | cursor
  | codex
  | api
  deriving DecidableEq, Repr

def Lane.isSubscription : Lane → Bool
  | .api => false
  | _ => true

def Lane.all : List Lane := [.claudeCodeMax, .cursor, .codex, .api]

theorem Lane.mem_all (l : Lane) : l ∈ Lane.all := by cases l <;> decide

structure Event where
  ts : Num
  tokens : Int
  requests : Int
  deriving DecidableEq, Repr

structure LaneState where
  tokenCap : Int
  windowS : ℚ
  events : List Event
  last429Ts : Option Num
  resetAt : Option Num
  reportedTokensRemaining : Option Int
  deriving DecidableEq, Repr

/-! ## What a lane has left -/

namespace LaneState

variable (st : LaneState) (now : ℚ)

def liveEvents : List Event :=
  let cutoff := now - max 1 st.windowS
  st.events.filter fun e => (Num.finite cutoff).lt e.ts && e.ts.le (.finite now)

def tokensUsed : Int := ((st.liveEvents now).map (·.tokens)).sum

def requestsMade : Int := ((st.liveEvents now).map (·.requests)).sum

def isThrottled : Bool :=
  match st.resetAt with
  | none => false
  | some t => (Num.finite now).lt t

/-- The provider's own count has run out: the reset that came with it has passed. -/
def expired : Bool :=
  match st.resetAt with
  | none => false
  | some t => t.le (.finite now)

def headroomTokens : Option Int :=
  if st.isThrottled now then some 0
  else
    match st.reportedTokensRemaining, st.expired now with
    | some reported, false => some (max 0 reported)
    | _, _ => if 0 < st.tokenCap then some (max 0 (st.tokenCap - st.tokensUsed now)) else none

def headroomFraction : Option ℚ :=
  if st.isThrottled now then some 0
  else if st.tokenCap ≤ 0 then none
  else (st.headroomTokens now).map fun remaining => max 0 (min 1 (remaining / st.tokenCap))

end LaneState

/-! ## The snapshot -/

structure LaneView where
  lane : Lane
  isSubscription : Bool
  tokenCap : Int
  windowS : ℚ
  tokensUsed : Int
  requestsMade : Int
  headroomTokens : Option Int
  headroomFraction : Option ℚ
  throttled : Bool
  last429Ts : Option Num
  resetAt : Option Num
  secondsToReset : Option Num
  deriving DecidableEq, Repr

structure Snapshot where
  ts : ℚ
  lanes : List LaneView
  deriving DecidableEq, Repr

/-- `_lanes`: the constructor gives every lane an entry. -/
abbrev Tracker := Lane → LaneState

def Tracker.fresh (planCaps : Lane → Option Int) (windowS : ℚ) : Tracker := fun l =>
  ⟨(planCaps l).getD 0, windowS, [], none, none, none⟩

def laneView (tracker : Tracker) (now : ℚ) (l : Lane) : LaneView where
  lane := l
  isSubscription := l.isSubscription
  tokenCap := (tracker l).tokenCap
  windowS := (tracker l).windowS
  tokensUsed := (tracker l).tokensUsed now
  requestsMade := (tracker l).requestsMade now
  headroomTokens := (tracker l).headroomTokens now
  headroomFraction := (tracker l).headroomFraction now
  throttled := (tracker l).isThrottled now
  last429Ts := (tracker l).last429Ts
  resetAt := (tracker l).resetAt
  secondsToReset :=
    match (tracker l).resetAt with
    | none => none
    | some t => if (Num.finite now).lt t then some (t.sub (.finite now)) else none

def snapshot (tracker : Tracker) (now : ℚ) : Snapshot := ⟨now, Lane.all.map (laneView tracker now)⟩

namespace Snapshot

/-- The `_key` of the best lane: a known positive fraction, then an unknown one, then zero. -/
def key (lv : LaneView) : ℕ ×ₗ ℚ :=
  match lv.headroomFraction with
  | none => toLex (1, 0)
  | some frac => if frac ≤ 0 then toLex (0, 0) else toLex (2, frac)

/-- `max` takes the first of the lanes with the greatest key. -/
def bestSubscriptionLane (snap : Snapshot) : Option LaneView :=
  (snap.lanes.filter fun lv => lv.isSubscription && !lv.throttled).argmax key

def anySubscriptionHeadroom (snap : Snapshot) (minFraction : ℚ) : Bool :=
  snap.lanes.any fun lv =>
    lv.isSubscription && !lv.throttled && lv.headroomFraction.all (minFraction < ·)

end Snapshot

/-! ## What the snapshot says of the lanes -/

/-- A lane has headroom above a fraction: it is not throttled, and its fraction is above it or
unknown. -/
def HasHeadroom (tracker : Tracker) (now minFraction : ℚ) (l : Lane) : Prop :=
  (tracker l).isThrottled now = false ∧
    ∀ frac, (tracker l).headroomFraction now = some frac → minFraction < frac

theorem anySubscriptionHeadroom_iff (tracker : Tracker) (now minFraction : ℚ) :
    (snapshot tracker now).anySubscriptionHeadroom minFraction = true ↔
      ∃ l : Lane, l.isSubscription = true ∧ HasHeadroom tracker now minFraction l := by
  simp only [Snapshot.anySubscriptionHeadroom, snapshot, List.any_map, List.any_eq_true,
    Function.comp_apply, laneView, Bool.and_eq_true, Bool.not_eq_true', Option.all_eq_true,
    decide_eq_true_eq, HasHeadroom]
  constructor
  · rintro ⟨l, -, ⟨hs, ht⟩, hf⟩
    exact ⟨l, hs, ht, hf⟩
  · rintro ⟨l, hs, ht, hf⟩
    exact ⟨l, l.mem_all, ⟨hs, ht⟩, hf⟩

theorem HasHeadroom.mono {tracker : Tracker} {now p q : ℚ} {l : Lane} (h : p ≤ q)
    (hq : HasHeadroom tracker now q l) : HasHeadroom tracker now p l :=
  ⟨hq.1, fun frac hf => h.trans_lt (hq.2 frac hf)⟩

theorem anySubscriptionHeadroom_mono {tracker : Tracker} {now p q : ℚ} (h : p ≤ q)
    (hq : (snapshot tracker now).anySubscriptionHeadroom q = true) :
    (snapshot tracker now).anySubscriptionHeadroom p = true := by
  rw [anySubscriptionHeadroom_iff] at hq ⊢
  obtain ⟨l, hs, hl⟩ := hq
  exact ⟨l, hs, hl.mono h⟩

theorem anySubscriptionHeadroom_congr {tracker tracker' : Tracker} {now now' : ℚ} (minFraction : ℚ)
    (h : ∀ l, (tracker l).isThrottled now = (tracker' l).isThrottled now' ∧
      (tracker l).headroomFraction now = (tracker' l).headroomFraction now') :
    (snapshot tracker now).anySubscriptionHeadroom minFraction =
      (snapshot tracker' now').anySubscriptionHeadroom minFraction := by
  rw [Bool.eq_iff_iff, anySubscriptionHeadroom_iff, anySubscriptionHeadroom_iff]
  simp only [HasHeadroom, (h _).1, (h _).2]

end Swarm.Usage
