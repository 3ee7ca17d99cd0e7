import Swarm.Usage

/-! # The tracker that is opened again on its file -/

namespace Swarm.Usage

def DEFAULT_REASSESS_AFTER_S : ℚ := DEFAULT_WINDOW_S

/-! ## The file -/

/-- A number of the file, `none` where it is null or missing. -/
abbrev Stored := Option Num

/-- `stored or default`: a zero counts as missing. -/
def Stored.or (stored : Stored) (default : Num) : Num :=
  match stored with
  | some n => if n = .finite 0 then default else n
  | none => default

structure EventRow where
  ts : Stored
  tokens : Stored
  requests : Stored
  deriving DecidableEq, Repr

structure LaneRow where
  lane : Lane
  tokenCap : Stored
  windowS : Stored
  events : List EventRow
  last429Ts : Stored
  resetAt : Stored
  reportedTokensRemaining : Stored
  deriving DecidableEq, Repr

def Event.toDict (e : Event) : EventRow :=
  ⟨some e.ts, some (.finite e.tokens), some (.finite e.requests)⟩

def EventRow.fromDict (d : EventRow) : Except PyError Event := do
  let tokens ← (d.tokens.or (.finite 0)).int
  let requests ← (d.requests.or (.finite 0)).int
  return ⟨d.ts.or (.finite 0), tokens, requests⟩

def LaneState.toDict (lane : Lane) (st : LaneState) : LaneRow where
  lane := lane
  tokenCap := some (.finite st.tokenCap)
  windowS := some (.finite st.windowS)
  events := st.events.map Event.toDict
  last429Ts := st.last429Ts
  resetAt := st.resetAt
  reportedTokensRemaining := st.reportedTokensRemaining.map fun n : Int => Num.finite n

def LaneRow.fromDict (d : LaneRow) : Except PyError LaneState := do
  let tokenCap ← (d.tokenCap.or (.finite 0)).int
  let windowS ← (d.windowS.or (.finite DEFAULT_WINDOW_S)).int
  let events ← d.events.mapM EventRow.fromDict
  let reported ← d.reportedTokensRemaining.mapM Num.int
  return ⟨tokenCap, windowS, events, d.last429Ts, d.resetAt, reported⟩

/-- The loop of `_load`, which skips the rows with a KeyError or a ValueError. -/
def loadLanes : List LaneRow → Except PyError (List (Lane × LaneState))
  | [] => .ok []
  | row :: rest =>
    match row.fromDict with
    | .ok st => (loadLanes rest).map ((row.lane, st) :: ·)
    | .error (.keyError _) | .error (.valueError _) => loadLanes rest
    | .error e => .error e

/-! ## The tracker -/

/-- The lanes in memory and the document on the path, if there is one that can be read. -/
structure UsageTracker where
  lanes : Tracker
  file : Option (List LaneRow)

namespace UsageTracker

/-- The constructor. A lane that is in the file more than once has its last row. -/
def new (file : Option (List LaneRow)) (planCaps : Lane → Option Int) (windowS : ℚ) :
    Except PyError UsageTracker := do
  let loaded ← loadLanes (file.getD [])
  let lanes : Tracker := fun l =>
    let st := (loaded.reverse.lookup l).getD ⟨0, windowS, [], none, none, none⟩
    { st with tokenCap := (planCaps l).getD st.tokenCap }
  return ⟨lanes, file⟩

/-- The rows are in the order of the dict, which only decides what the document looks like. -/
def save (t : UsageTracker) : UsageTracker :=
  { t with file := some (Lane.all.map fun l => (t.lanes l).toDict l) }

def set (t : UsageTracker) (lane : Lane) (st : LaneState) : UsageTracker :=
  { t with lanes := Function.update t.lanes lane st }

def recordUsage (t : UsageTracker) (lane : Lane) (tokens requests : Num) (now : ℚ) :
    Except PyError Unit × UsageTracker :=
  if tokens.lt (.finite 0) || requests.lt (.finite 0) then
    (.error (.valueError "tokens and requests must be non-negative"), t)
  else
    match tokens.int, requests.int with
    | .error e, _ | _, .error e => (.error e, t)
    | .ok tokens, .ok requests =>
      let st := t.lanes lane
      let st := { st with events := st.events ++ [Event.mk (.finite now) tokens requests] }
      (.ok (), (t.set lane { st with events := st.liveEvents now }).save)  -- `_prune`

def recordRateLimit (t : UsageTracker) (lane : Lane) (retryAfterS : Option Num) (now : ℚ) :
    Except PyError Unit × UsageTracker :=
  let delay :=
    match retryAfterS with
    | some s => if (Num.finite 0).lt s then s else .finite DEFAULT_REASSESS_AFTER_S
    | none => .finite DEFAULT_REASSESS_AFTER_S
  let st := { t.lanes lane with last429Ts := some (.finite now), resetAt := some ((Num.finite now).add delay) }
  (.ok (), (t.set lane st).save)

end UsageTracker

/-! ## Headers -/

/-- What Python makes of a text: `strip`, `float`, and the time of an RFC 3339 stamp. -/
structure Parsing where
  strip : String → String
  float : String → Option Num
  timestamp : String → Option Num

section Headers

variable (py : Parsing)

/-- `_safe_int`, which does not catch the OverflowError of an infinity. -/
def safeInt (v : Option String) : Except PyError (Option Int) :=
  match v.bind py.float with
  | none => .ok none
  | some n =>
    match n.int with
    | .ok i => .ok (some i)
    | .error (.valueError _) => .ok none
    | .error e => .error e

def parseReset (v : Option String) (now : ℚ) : Option Num :=
  match v.map py.strip with
  | none | some "" => none
  | some v =>
    let dur := if v.endsWith "s" then String.ofList v.toList.dropLast else v
    let dur := if dur.startsWith "+" then String.ofList dur.toList.tail else dur
    match py.float dur with
    | some f => some ((Num.finite now).add f)
    | none => py.timestamp (v.replace "Z" "+00:00")

/-- `headers` looks a name in lower case up. The cap is set before the other texts are parsed. -/
def UsageTracker.applyAnthropicHeaders (t : UsageTracker) (lane : Lane)
    (headers : String → Option String) (now : ℚ) : Except PyError Unit × UsageTracker :=
  match safeInt py (headers "anthropic-ratelimit-tokens-limit") with
  | .error e => (.error e, t)
  | .ok limit =>
    let st := t.lanes lane
    let st :=
      match limit with
      | some limit => if 0 < limit then { st with tokenCap := limit } else st
      | none => st
    match safeInt py (headers "anthropic-ratelimit-tokens-remaining") with
    | .error e => (.error e, t.set lane st)
    | .ok remaining =>
      let st :=
        match remaining with
        | some remaining => { st with reportedTokensRemaining := some (max 0 remaining) }
        | none => st
      let resetAt := parseReset py (headers "anthropic-ratelimit-tokens-reset") now
      let st :=
        match (headers "retry-after").bind py.float with
        | some s => if (Num.finite 0).lt s then
            { st with last429Ts := some (.finite now), resetAt := some ((Num.finite now).add s) }
          else softThrottle st resetAt remaining
        | none => softThrottle st resetAt remaining
      (.ok (), (t.set lane st).save)
where
  /-- Nothing remains until a reset. -/
  softThrottle (st : LaneState) (resetAt : Option Num) (remaining : Option Int) : LaneState :=
    match resetAt, remaining with
    | some resetAt, some remaining =>
      if remaining ≤ 0 then { st with last429Ts := some (.finite now), resetAt := some resetAt } else st
    | _, _ => st

end Headers

namespace UsageTracker

def clearThrottle (t : UsageTracker) (lane : Lane) : Except PyError Unit × UsageTracker :=
  (.ok (), (t.set lane { t.lanes lane with resetAt := none, reportedTokensRemaining := none }).save)

def setCap (t : UsageTracker) (lane : Lane) (tokens : Num) (windowS : Option Num) :
    Except PyError Unit × UsageTracker :=
  match tokens.int with
  | .error e => (.error e, t)
  | .ok cap =>
    let st := { t.lanes lane with tokenCap := cap }
    match windowS with
    | none => (.ok (), (t.set lane st).save)
    | some w =>
      match w.int with
      | .error e => (.error e, t.set lane st)
      | .ok w => (.ok (), (t.set lane { st with windowS := w }).save)

end UsageTracker

/-! ## Calls -/

inductive Call
  | recordUsage (lane : Lane) (tokens requests : Num) (now : ℚ)
  | recordRateLimit (lane : Lane) (retryAfterS : Option Num) (now : ℚ)
  | applyAnthropicHeaders (lane : Lane) (headers : String → Option String) (now : ℚ)
  | clearThrottle (lane : Lane)
  | setCap (lane : Lane) (tokens : Num) (windowS : Option Num)

variable (py : Parsing)

def Call.apply (t : UsageTracker) : Call → Except PyError Unit × UsageTracker
  | .recordUsage lane tokens requests now => t.recordUsage lane tokens requests now
  | .recordRateLimit lane retryAfterS now => t.recordRateLimit lane retryAfterS now
  | .applyAnthropicHeaders lane headers now => t.applyAnthropicHeaders py lane headers now
  | .clearThrottle lane => t.clearThrottle lane
  | .setCap lane tokens windowS => t.setCap lane tokens windowS

/-- The tracker after the calls, those that raise included. -/
def runCalls (t : UsageTracker) (calls : List Call) : UsageTracker :=
  calls.foldl (fun t c => (c.apply py t).2) t

/-- The window that a call sets for the lane. -/
def Call.window (l : Lane) : Call → Option Int
  | .setCap lane tokens (some w) =>
    match tokens.int, w.int with
    | .ok _, .ok w => if lane = l then some w else none
    | _, _ => none
  | _ => none

def windowAfter (l : Lane) (start : ℚ) (calls : List Call) : ℚ :=
  match (calls.filterMap (Call.window l)).getLast? with
  | some w => w
  | none => start

@[simp] theorem set_lanes (t : UsageTracker) (lane : Lane) (st : LaneState) (l : Lane) :
    (t.set lane st).lanes l = if l = lane then st else t.lanes l := by
  simp [UsageTracker.set, Function.update_apply]

@[simp] theorem save_lanes (t : UsageTracker) : t.save.lanes = t.lanes := rfl

theorem window_set {t : UsageTracker} {lane : Lane} {st : LaneState}
    (h : st.windowS = (t.lanes lane).windowS) (l : Lane) :
    ((t.set lane st).lanes l).windowS = (t.lanes l).windowS := by
  rw [set_lanes]
  split
  · next heq => rw [heq, h]
  · rfl

theorem softThrottle_window (now : ℚ) (st : LaneState) (resetAt : Option Num)
    (remaining : Option Int) :
    (UsageTracker.applyAnthropicHeaders.softThrottle now st resetAt remaining).windowS =
      st.windowS := by
  unfold UsageTracker.applyAnthropicHeaders.softThrottle
  split
  · split <;> rfl
  · rfl

theorem headers_window (t : UsageTracker) (lane : Lane) (headers : String → Option String) (now : ℚ)
    (l : Lane) :
    ((t.applyAnthropicHeaders py lane headers now).2.lanes l).windowS = (t.lanes l).windowS := by
  unfold UsageTracker.applyAnthropicHeaders
  cases safeInt py (headers "anthropic-ratelimit-tokens-limit") with
  | error e => rfl
  | ok limit =>
    have hcap : ∀ st : LaneState, (match limit with
        | some limit => if 0 < limit then { st with tokenCap := limit } else st
        | none => st).windowS = st.windowS := by
      intro st
      split
      · split <;> rfl
      · rfl
    dsimp only
    cases safeInt py (headers "anthropic-ratelimit-tokens-remaining") with
    | error e => exact window_set (hcap _) l
    | ok remaining =>
      refine window_set ?_ l
      split
      · split
        · split <;> exact hcap _
        · rw [softThrottle_window]
          split <;> exact hcap _
      · rw [softThrottle_window]
        split <;> exact hcap _

theorem apply_window (t : UsageTracker) (c : Call) (l : Lane) :
    ((c.apply py t).2.lanes l).windowS =
      match c.window l with
      | some w => (w : ℚ)
      | none => (t.lanes l).windowS := by
  cases c with
  | recordUsage lane tokens requests now =>
    simp only [Call.apply, Call.window, UsageTracker.recordUsage]
    split
    · rfl
    · split
      · rfl
      · rfl
      · exact window_set (by rfl) l
  | recordRateLimit lane retryAfterS now => exact window_set (by rfl) l
  | applyAnthropicHeaders lane headers now => exact headers_window py t lane headers now l
  | clearThrottle lane => exact window_set (by rfl) l
  | setCap lane tokens windowS =>
    simp only [Call.apply, UsageTracker.setCap]
    cases htokens : tokens.int with
    | error e => cases windowS <;> simp [Call.window, htokens]
    | ok cap =>
      cases windowS with
      | none => exact window_set (by rfl) l
      | some w =>
        cases hw : w.int with
        | error e =>
          simp only [Call.window, htokens, hw]
          exact window_set (by rfl) l
        | ok n =>
          simp only [Call.window, htokens, hw, save_lanes, set_lanes]
          by_cases hl : l = lane
          · simp [hl]
          · simp [hl, Ne.symm hl]

theorem runCalls_window (t : UsageTracker) (calls : List Call) (l : Lane) :
    ((runCalls py t calls).lanes l).windowS = windowAfter l (t.lanes l).windowS calls := by
  induction calls using List.reverseRecOn with
  | nil => rfl
  | append_singleton calls c ih =>
    have hstep : runCalls py t (calls ++ [c]) = (c.apply py (runCalls py t calls)).2 := by
      simp [runCalls]
    rw [hstep, apply_window, ih, windowAfter, windowAfter, List.filterMap_append]
    cases hw : c.window l with
    | none => simp [hw]
    | some w => simp [hw]

theorem apply_saved {t : UsageTracker} {c : Call} (h : (c.apply py t).1 = .ok ()) :
    ∃ t' : UsageTracker, (c.apply py t).2 = t'.save := by
  cases c with
  | recordUsage lane tokens requests now =>
    simp only [Call.apply, UsageTracker.recordUsage] at h ⊢
    split at h
    · cases h
    · next hneg =>
      rw [if_neg hneg]
      split at h
      · cases h
      · cases h
      · exact ⟨_, rfl⟩
  | recordRateLimit lane retryAfterS now => exact ⟨_, rfl⟩
  | applyAnthropicHeaders lane headers now =>
    simp only [Call.apply, UsageTracker.applyAnthropicHeaders] at h ⊢
    split at h
    · cases h
    · split at h
      · cases h
      · exact ⟨_, rfl⟩
  | clearThrottle lane => exact ⟨_, rfl⟩
  | setCap lane tokens windowS =>
    simp only [Call.apply, UsageTracker.setCap] at h ⊢
    split at h
    · cases h
    · split at h
      · exact ⟨_, rfl⟩
      · split at h
        · cases h
        · exact ⟨_, rfl⟩

/-! ## The file read back -/

/-- The window that a saved one is read as. -/
def readWindow (w : ℚ) : ℚ := if w = 0 then DEFAULT_WINDOW_S else (w.num.tdiv w.den : Int)

def readBack (st : LaneState) : LaneState := { st with windowS := readWindow st.windowS }

@[simp] theorem or_zero (n : Num) : Stored.or (some n) (.finite 0) = n := by
  simp only [Stored.or]
  split
  · next h => exact h.symm
  · rfl

theorem event_readBack (e : Event) : e.toDict.fromDict = .ok e := by
  simp only [Event.toDict, EventRow.fromDict, or_zero, Num.int_intCast]
  rfl

theorem window_readBack (w : ℚ) :
    ∃ n, (Stored.or (some (.finite w)) (.finite DEFAULT_WINDOW_S)).int = .ok n ∧
      (n : ℚ) = readWindow w := by
  unfold Stored.or readWindow
  by_cases h : w = 0
  · simp [h]
  · simp [h, Num.int]

theorem events_readBack (events : List Event) :
    (events.map Event.toDict).mapM EventRow.fromDict = .ok events := by
  induction events with
  | nil => rfl
  | cons e rest ih =>
    simp [List.mapM_cons, event_readBack, ih, bind, Except.bind, pure, Except.pure]

theorem lane_readBack (l : Lane) (st : LaneState) : (st.toDict l).fromDict = .ok (readBack st) := by
  obtain ⟨n, hn, hw⟩ := window_readBack st.windowS
  have hreported : (st.reportedTokensRemaining.map fun n : Int => Num.finite n).mapM Num.int =
      .ok st.reportedTokensRemaining := by
    cases st.reportedTokensRemaining with
    | none => rfl
    | some n =>
      rw [Option.map_some, Option.mapM_some, Num.int_intCast]
      rfl
  simp only [LaneState.toDict, LaneRow.fromDict, or_zero, Num.int_intCast, hn, events_readBack, hreported, bind,
    Except.bind, pure, Except.pure, readBack, hw]

theorem lanes_readBack (lanes : Tracker) (ls : List Lane) :
    loadLanes (ls.map fun l => (lanes l).toDict l) =
      .ok (ls.map fun l => (l, readBack (lanes l))) := by
  induction ls with
  | nil => rfl
  | cons l rest ih =>
    rw [List.map_cons, loadLanes, lane_readBack, ih]
    rfl

/-- Opened on what was saved, a tracker has every lane again but for its window. -/
theorem new_saved (t : UsageTracker) (windowS : ℚ) :
    UsageTracker.new t.save.file (fun _ => none) windowS =
      .ok ⟨fun l => readBack (t.lanes l), t.save.file⟩ := by
  have hlookup : ∀ l, (Lane.all.map fun l => (l, readBack (t.lanes l))).reverse.lookup l =
      some (readBack (t.lanes l)) := by
    intro l
    cases l <;> rfl
  simp only [UsageTracker.new, UsageTracker.save, Option.getD_some, lanes_readBack, bind, Except.bind, hlookup,
    Option.getD_none]
  rfl

def WholeWindow (w : ℚ) : Prop := w ≠ 0 ∧ ∃ n : Int, w = n

theorem readWindow_eq_iff (w : ℚ) : readWindow w = w ↔ WholeWindow w := by
  unfold readWindow WholeWindow
  by_cases h : w = 0
  · simp [h, DEFAULT_WINDOW_S]
  · rw [if_neg h]
    constructor
    · intro heq
      exact ⟨h, _, heq.symm⟩
    · rintro ⟨-, n, rfl⟩
      simp

theorem readBack_same_iff (t t' : Tracker) (h : ∀ l, t' l = readBack (t l)) :
    (∀ l now, laneView t' now l = laneView t now l) ↔ ∀ l, WholeWindow (t l).windowS := by
  constructor
  · intro hsame l
    have hw := congrArg LaneView.windowS (hsame l 0)
    simp only [laneView, h, readBack] at hw
    exact (readWindow_eq_iff _).mp hw
  · intro hwindow l now
    have hl : t' l = t l := by
      rw [h, readBack, (readWindow_eq_iff _).mpr (hwindow l)]
    simp only [laneView, hl]

/-! ## The restart -/

/-- **When the restart is invisible.** A tracker that is opened again on its file shows the same
lanes exactly when the window of every lane is a whole number other than zero. -/
theorem restart_same_iff (t : UsageTracker) (calls : List Call) (last : Call)
    (hlast : (last.apply py (runCalls py t calls)).1 = .ok ()) (windowS : ℚ) :
    (∃ again, UsageTracker.new (runCalls py t (calls ++ [last])).file (fun _ => none) windowS =
      .ok again ∧
        ∀ l now, laneView again.lanes now l =
          laneView (runCalls py t (calls ++ [last])).lanes now l) ↔
      ∀ l, WholeWindow (windowAfter l (t.lanes l).windowS (calls ++ [last])) := by
  have hstep : runCalls py t (calls ++ [last]) = (last.apply py (runCalls py t calls)).2 := by
    simp [runCalls]
  obtain ⟨t', ht'⟩ := apply_saved py hlast
  have hsame := readBack_same_iff t'.lanes (fun l => readBack (t'.lanes l)) fun _ => rfl
  simp only [← runCalls_window py t (calls ++ [last]), hstep, ht', new_saved, save_lanes, Except.ok.injEq,
    exists_eq_left', hsame]

/-- A parser of no text. -/
def noTexts : Parsing := ⟨id, fun _ => none, fun _ => none⟩

def opened : UsageTracker := ⟨Tracker.fresh (fun _ => none) DEFAULT_WINDOW_S, none⟩

theorem usage_survives :
    ∃ again, UsageTracker.new (runCalls noTexts opened [.recordUsage .cursor (.finite 400) (.finite 1) 1000,
        .recordRateLimit .api (some (.finite 50)) 1000]).file (fun _ => none) 1000 = .ok again ∧
      ∀ l now, laneView again.lanes now l =
        laneView (runCalls noTexts opened [.recordUsage .cursor (.finite 400) (.finite 1) 1000,
          .recordRateLimit .api (some (.finite 50)) 1000]).lanes now l := by
  refine (restart_same_iff noTexts opened [.recordUsage .cursor (.finite 400) (.finite 1) 1000]
    (.recordRateLimit .api (some (.finite 50)) 1000) rfl 1000).mpr fun l => ⟨?_, 18000, ?_⟩
  · show (DEFAULT_WINDOW_S : ℚ) ≠ 0
    norm_num [DEFAULT_WINDOW_S]
  · rfl

/-- A window of zero counts one second before the restart and five hours after it. -/
theorem zero_window_lost :
    ((Call.setCap .api (.finite 1000) (some (.finite 0))).apply noTexts opened).1 = .ok () ∧
      ¬ ∃ again, UsageTracker.new (runCalls noTexts opened [.setCap .api (.finite 1000) (some (.finite 0))]).file
          (fun _ => none) DEFAULT_WINDOW_S = .ok again ∧
        ∀ l now, laneView again.lanes now l =
          laneView (runCalls noTexts opened [.setCap .api (.finite 1000) (some (.finite 0))]).lanes now l := by
  refine ⟨rfl, ?_⟩
  rintro ⟨again, hagain, hsame⟩
  obtain ⟨t', ht'⟩ : ∃ t' : UsageTracker,
      runCalls noTexts opened [.setCap .api (.finite 1000) (some (.finite 0))] = t'.save := ⟨_, rfl⟩
  have hzero : (t'.lanes .api).windowS = 0 := by
    rw [← save_lanes, ← ht']
    rfl
  rw [ht', new_saved, Except.ok.injEq] at hagain
  have hw := congrArg LaneView.windowS (hsame .api 0)
  rw [← hagain, ht'] at hw
  simp [laneView, readBack, hzero, readWindow, DEFAULT_WINDOW_S] at hw

end Swarm.Usage
