import Swarm.Usage.Restart
import Swarm.Value

/-! # The tracker that is opened on any file -/

namespace Swarm.Usage

open Lib Value

/-! ## The readers -/

def Lane.value : Lane → String
  | .claudeCodeMax => "claude-code-max"
  | .cursor => "cursor"
  | .codex => "codex"
  | .api => "api"

/-- The lane with this value. -/
def Lane.named (v : Value) : Option Lane := v.str?.bind fun s => Lane.all.find? (·.value == s)

section Code

variable (py : Builtins)

/-- `Lane(v)` -/
def Lane.ofValue (v : Value) : Except PyError Lane :=
  match Lane.named v with
  | some l => .ok l
  | none => .error (.valueError (py.repr v ++ " is not a valid Lane"))

/-- `Lane(d["lane"])` -/
def laneOf (d : List (String × Value)) : Except PyError Lane :=
  match d.lookup "lane" with
  | some v => Lane.ofValue py v
  | none => .error (.keyError "lane")

def Event.ofDict (d : List (String × Value)) : Except PyError Event := do
  let ts ← ((get d "ts").or (.float (.finite 0))).toFloat py
  let tokens ← ((get d "tokens").or (.int 0)).toInt py
  let requests ← ((get d "requests").or (.int 0)).toInt py
  return ⟨ts, tokens, requests⟩

def LaneState.ofDict (d : List (String × Value)) : Except PyError (Lane × LaneState) := do
  let lane ← laneOf py d
  let tokenCap ← ((get d "token_cap").or (.int 0)).toInt py
  let windowS ← ((get d "window_s").or (.int DEFAULT_WINDOW_S)).toInt py
  let items ← ((d.lookup "events").getD (.arr [])).iter
  let events ← (items.filterMap dict?).mapM (Event.ofDict py)
  let last429Ts ← (get d "last_429_ts").optFloat py
  let resetAt ← (get d "reset_at").optFloat py
  let reported ← (get d "reported_tokens_remaining").optInt py
  return (lane, ⟨tokenCap, windowS, events, last429Ts, resetAt, reported⟩)

/-- The loop of `_load`, in the order of the file. -/
def loadRows : List Value → Except PyError (List (Lane × LaneState))
  | [] => .ok []
  | .obj d :: rest =>
    match LaneState.ofDict py d with
    | .ok row => (loadRows rest).map (row :: ·)
    | .error e => if caught e then loadRows rest else .error e
  | _ :: rest => loadRows rest

/-- The cap that is declared for the lane goes before the one in the file. -/
def capped (planCaps : Lane → Option Int) (l : Lane) (st : LaneState) : LaneState :=
  { st with tokenCap := (planCaps l).getD st.tokenCap }

def newLane (windowS : ℚ) : LaneState := ⟨0, windowS, [], none, none, none⟩

/-- The lanes after the loop over `Lane`. -/
def seeded (planCaps : Lane → Option Int) (windowS : ℚ) (loaded : List (Lane × LaneState)) :
    Tracker := fun l =>
  capped planCaps l ((loaded.reverse.lookup l).getD (newLane windowS))

def lanesField (data : List (String × Value)) : Value := (data.lookup "lanes").getD (.arr [])

/-- `UsageTracker(path=…, plan_caps=…, window_s=…)` -/
def openTracker (content : Content) (planCaps : Lane → Option Int) (windowS : ℚ) :
    Except Escape Tracker :=
  match content with
  | .absent | .unreadable => .ok (seeded planCaps windowS [])
  | .tooDeep => .error .recursionError
  | .document (.obj data) =>
    match (lanesField data).iter >>= loadRows py with
    | .ok loaded => .ok (seeded planCaps windowS loaded)
    | .error e => .error (.program e)
  | .document v =>
    .error (.program (.attributeError ("'" ++ v.typeName ++ "' object has no attribute 'get'")))

end Code

/-! ## What a row says -/

abbrev Dict := List (String × Value)

/-- Each field as written where it has its shape, and its default where not. -/
def Event.asWritten (d : Dict) : Event where
  ts := (get d "ts").num?.getD (.finite 0)
  tokens := (get d "tokens").int?.getD 0
  requests := (get d "requests").int?.getD 0

def eventDicts (d : Dict) : List Dict := ((get d "events").items?.getD []).filterMap dict?

def LaneState.asWritten (d : Dict) : LaneState where
  tokenCap := (get d "token_cap").int?.getD 0
  windowS := ((get d "window_s").int?.getD DEFAULT_WINDOW_S : Int)
  events := (eventDicts d).map Event.asWritten
  last429Ts := (get d "last_429_ts").num?
  resetAt := (get d "reset_at").num?
  reportedTokensRemaining := (get d "reported_tokens_remaining").int?

/-- The shape that `to_dict` gives an event. -/
def Event.WellFormed (v : Value) : Prop :=
  ∃ d, v = .obj d ∧ (get d "ts").num?.isSome = true ∧ (get d "tokens").int?.isSome = true ∧
    (get d "requests").int?.isSome = true

/-- The shape that `to_dict` gives a row. -/
structure LaneState.WellFormed (d : Dict) : Prop where
  lane : ∃ l : Lane, d.lookup "lane" = some (.str l.value)
  tokenCap : (get d "token_cap").int?.isSome = true
  windowS : (get d "window_s").int?.isSome = true
  events : ∃ items, d.lookup "events" = some (.arr items) ∧ ∀ v ∈ items, Event.WellFormed v
  last429Ts : get d "last_429_ts" = .null ∨ (get d "last_429_ts").num?.isSome = true
  resetAt : get d "reset_at" = .null ∨ (get d "reset_at").num?.isSome = true
  reported : get d "reported_tokens_remaining" = .null ∨ (get d "reported_tokens_remaining").int?.isSome = true

/-! ## What the readers make of it -/

section Readings

variable (py : Builtins)

def laneNamed (d : Dict) : Option Lane := (d.lookup "lane").bind Lane.named

def laneReading (d : Dict) : Reading := if (laneNamed d).isSome then .faithful else .refused

def eventReading (d : Dict) : Reading :=
  (floatReading py (get d "ts")).and
    ((intReading py 0 (get d "tokens")).and (intReading py 0 (get d "requests")))

/-- A text or a dict has no events in it; null is not missing. -/
def eventsReading (d : Dict) : Reading :=
  if ((d.lookup "events").getD (.arr [])).iterable then .all ((eventDicts d).map (eventReading py)) else .raises

/-- The fields in the order of `from_dict`. -/
def rowReading (d : Dict) : Reading :=
  (laneReading d).and <| (intReading py 0 (get d "token_cap")).and <|
    (intReading py DEFAULT_WINDOW_S (get d "window_s")).and <| (eventsReading py d).and <|
    (optFloatReading py (get d "last_429_ts")).and <| (optFloatReading py (get d "reset_at")).and <|
    optIntReading py (get d "reported_tokens_remaining")

theorem eventReading_eq (d : Dict) :
    Reading.of caught (Event.ofDict py d) (Event.asWritten d) = eventReading py d := by
  let build : Num × Int × Int → Event := fun p => ⟨p.1, p.2.1, p.2.2⟩
  have hbuild : Function.Injective build := by
    rintro ⟨a, b, c⟩ ⟨a', b', c'⟩ h
    simpa [build] using h
  have hread : Event.ofDict py d =
      (Reading.pair (((get d "ts").or (.float (.finite 0))).toFloat py)
        (Reading.pair (((get d "tokens").or (.int 0)).toInt py)
          (((get d "requests").or (.int 0)).toInt py))).map build := by
    simp only [Event.ofDict, Reading.map_eq_bind, Reading.pair, bind_assoc, pure_bind, build]
  have hwritten : Event.asWritten d = build
      ((get d "ts").num?.getD (.finite 0), (get d "tokens").int?.getD 0, (get d "requests").int?.getD 0) := rfl
  rw [hread, hwritten, Reading.of_map hbuild, Reading.of_pair, Reading.of_pair, floatReading_eq, intReading_eq,
    intReading_eq]
  rfl

/-- The reader of the events. -/
def eventsOf (d : Dict) : Except PyError (List Event) := do
  let items ← ((d.lookup "events").getD (.arr [])).iter
  (items.filterMap dict?).mapM (Event.ofDict py)

theorem laneOf_ok_iff (d : Dict) (l : Lane) : laneOf py d = .ok l ↔ laneNamed d = some l := by
  unfold laneOf laneNamed Lane.ofValue
  cases d.lookup "lane" with
  | none => simp
  | some v =>
    dsimp only [Option.bind_some]
    cases Lane.named v <;> simp

theorem laneReading_eq (d : Dict) (default : Lane) :
    Reading.of caught (laneOf py d) ((laneNamed d).getD default) = laneReading d := by
  unfold laneReading
  cases hnamed : laneNamed d with
  | some l =>
    rw [(laneOf_ok_iff py d l).mpr hnamed]
    exact Reading.of_same l
  | none =>
    unfold laneNamed at hnamed
    unfold laneOf Lane.ofValue
    cases hfield : d.lookup "lane" with
    | none => rfl
    | some v =>
      rw [hfield, Option.bind_some] at hnamed
      dsimp only
      rw [hnamed]
      rfl

theorem eventDicts_eq (d : Dict) :
    eventDicts d = (((d.lookup "events").getD (.arr [])).items?.getD []).filterMap dict? := by
  unfold eventDicts Value.get
  cases d.lookup "events" <;> rfl

theorem eventsReading_eq (d : Dict) :
    Reading.of caught (eventsOf py d) ((eventDicts d).map Event.asWritten) =
      eventsReading py d := by
  unfold eventsReading eventsOf
  by_cases hiter : ((d.lookup "events").getD (.arr [])).iterable = true
  · obtain ⟨items, hitems⟩ := (iter_ok_iff _).mpr hiter
    rw [if_pos hiter, hitems, eventDicts_eq, ← iter_dicts hitems]
    simp only [bind, Except.bind, Reading.of_mapM, eventReading_eq]
  · rw [if_neg hiter]
    cases hitems : ((d.lookup "events").getD (.arr [])).iter with
    | ok items => exact absurd ((iter_ok_iff _).mp ⟨items, hitems⟩) hiter
    | error e =>
      unfold iter at hitems
      split at hitems
      · cases hitems
      · cases hitems
      · cases hitems
      · cases hitems
        rfl

/-- A row from its fields in the order of `from_dict`. -/
def buildRow (p : Lane × Int × Int × List Event × Option Num × Option Num × Option Int) :
    Lane × LaneState :=
  (p.1, ⟨p.2.1, p.2.2.1, p.2.2.2.1, p.2.2.2.2.1, p.2.2.2.2.2.1, p.2.2.2.2.2.2⟩)

theorem buildRow_injective : Function.Injective buildRow := by
  rintro ⟨a, b, c, e, f, g, h⟩ ⟨a', b', c', e', f', g', h'⟩ heq
  simpa [buildRow] using heq

theorem ofDict_eq (d : Dict) : LaneState.ofDict py d =
    (Reading.pair (laneOf py d) <| Reading.pair (((get d "token_cap").or (.int 0)).toInt py) <|
      Reading.pair (((get d "window_s").or (.int DEFAULT_WINDOW_S)).toInt py) <| Reading.pair (eventsOf py d) <|
      Reading.pair ((get d "last_429_ts").optFloat py) <| Reading.pair ((get d "reset_at").optFloat py) <|
      (get d "reported_tokens_remaining").optInt py).map buildRow := by
  simp only [LaneState.ofDict, eventsOf, Reading.map_eq_bind, Reading.pair, bind_assoc, pure_bind, buildRow]

theorem rowReading_eq (d : Dict) (default : Lane) :
    Reading.of caught (LaneState.ofDict py d) ((laneNamed d).getD default, LaneState.asWritten d) =
      rowReading py d := by
  have hwritten : ((laneNamed d).getD default, LaneState.asWritten d) = buildRow
      ((laneNamed d).getD default, (get d "token_cap").int?.getD 0, (get d "window_s").int?.getD DEFAULT_WINDOW_S,
        (eventDicts d).map Event.asWritten, (get d "last_429_ts").num?, (get d "reset_at").num?,
        (get d "reported_tokens_remaining").int?) := rfl
  rw [ofDict_eq, hwritten, Reading.of_map buildRow_injective]
  simp only [Reading.of_pair, laneReading_eq, intReading_eq, eventsReading_eq, optFloatReading_eq, optIntReading_eq]
  rfl

/-! ### A well-formed row is not refused -/

theorem named_value (l : Lane) : Lane.named (.str l.value) = some l := by cases l <;> decide

theorem eventReading_ne_refused {d : Dict} (h : Event.WellFormed (.obj d)) :
    eventReading py d ≠ .refused := by
  obtain ⟨d', hd', hts, htokens, hrequests⟩ := h
  cases hd'
  exact Reading.and_ne_refused (floatReading_ne_refused py hts)
    (Reading.and_ne_refused (intReading_ne_refused py 0 htokens) (intReading_ne_refused py 0 hrequests))

theorem eventsReading_ne_refused {d : Dict} {items : List Value}
    (h : d.lookup "events" = some (.arr items)) (hitems : ∀ v ∈ items, Event.WellFormed v) :
    eventsReading py d ≠ .refused := by
  unfold eventsReading
  split
  · apply Reading.all_ne_refused
    rw [List.forall_mem_map]
    intro e he
    rw [eventDicts_eq, h] at he
    obtain ⟨v, hv, hve⟩ := List.mem_filterMap.mp he
    have hwf := hitems v hv
    unfold dict? at hve
    split at hve
    · cases hve
      exact eventReading_ne_refused py hwf
    · cases hve
  · decide

theorem rowReading_ne_refused {d : Dict} (h : LaneState.WellFormed d) :
    rowReading py d ≠ .refused := by
  obtain ⟨⟨l, hl⟩, hcap, hwindow, ⟨items, hevents, hitems⟩, hlast, hreset, hreported⟩ := h
  have hlane : laneReading d ≠ .refused := by
    unfold laneReading laneNamed
    rw [hl, Option.bind_some, named_value]
    exact nofun
  unfold rowReading
  apply Reading.and_ne_refused hlane
  apply Reading.and_ne_refused (intReading_ne_refused py 0 hcap)
  apply Reading.and_ne_refused (intReading_ne_refused py _ hwindow)
  apply Reading.and_ne_refused (eventsReading_ne_refused py hevents hitems)
  apply Reading.and_ne_refused (optFloatReading_ne_refused py hlast)
  apply Reading.and_ne_refused (optFloatReading_ne_refused py hreset)
  exact optIntReading_ne_refused py hreported

end Readings

/-! ## What a start should give -/

section Start

variable (py : Builtins)

/-- A row is loaded with each field as written or at its default, or it is malformed and skipped. -/
structure RowFine (d : Dict) : Prop where
  loaded : ∀ l st, LaneState.ofDict py d = .ok (l, st) → laneNamed d = some l ∧ st = LaneState.asWritten d
  skipped : ∀ e, LaneState.ofDict py d = .error e → caught e = true ∧ ¬ LaneState.WellFormed d

/-- The row is loaded for the lane. -/
def Loads (d : Dict) (l : Lane) : Prop := ∃ st, LaneState.ofDict py d = .ok (l, st)

def rowsOf : Content → List Dict
  | .document (.obj data) => ((lanesField data).items?.getD []).filterMap dict?
  | _ => []

/-- The lane is as the last row that is loaded for it says, or it is new. -/
def LaneFrom (rows : List Dict) (planCaps : Lane → Option Int) (windowS : ℚ) (t : Tracker)
    (l : Lane) : Prop :=
  (∃ before d after, rows = before ++ d :: after ∧ Loads py d l ∧ (∀ d' ∈ after, ¬ Loads py d' l) ∧
      t l = capped planCaps l (LaneState.asWritten d)) ∨
    (∀ d ∈ rows, ¬ Loads py d l) ∧ t l = capped planCaps l (newLane windowS)

/-- The constructor returns, and what it returns is what the file says. -/
def TrackerStarts (content : Content) (planCaps : Lane → Option Int) (windowS : ℚ) : Prop :=
  ∃ t, openTracker py content planCaps windowS = .ok t ∧ (∀ d ∈ rowsOf content, RowFine py d) ∧
    ∀ l, LaneFrom py (rowsOf content) planCaps windowS t l

/-- The text is no JSON, or an object whose rows, if it has any, are read soundly. -/
def UsageSound : Content → Prop
  | .absent | .unreadable => True
  | .tooDeep => False
  | .document v => ∃ data, v = .obj data ∧ (lanesField data).iterable = true ∧
      ∀ d ∈ rowsOf (.document v), (rowReading py d).Sound

theorem lane_of_loaded {d : Dict} {l : Lane} {st : LaneState}
    (h : LaneState.ofDict py d = .ok (l, st)) :
    laneNamed d = some l := by
  unfold LaneState.ofDict at h
  obtain ⟨l', hlane, h⟩ := Reading.bind_ok h
  obtain ⟨tokenCap, -, h⟩ := Reading.bind_ok h
  obtain ⟨windowS, -, h⟩ := Reading.bind_ok h
  obtain ⟨items, -, h⟩ := Reading.bind_ok h
  obtain ⟨events, -, h⟩ := Reading.bind_ok h
  obtain ⟨last429Ts, -, h⟩ := Reading.bind_ok h
  obtain ⟨resetAt, -, h⟩ := Reading.bind_ok h
  obtain ⟨reported, -, h⟩ := Reading.bind_ok h
  cases h
  exact (laneOf_ok_iff py d l).mp hlane

theorem rowFine_iff (d : Dict) : RowFine py d ↔ (rowReading py d).Sound := by
  rw [← rowReading_eq py d .api, Reading.sound_iff]
  constructor
  · intro h
    refine ⟨?_, fun e he => (h.skipped e he).1⟩
    rintro ⟨l, st⟩ hrow
    obtain ⟨hl, rfl⟩ := h.loaded l st hrow
    rw [hl]
    rfl
  · rintro ⟨hok, herror⟩
    constructor
    · intro l st hrow
      exact ⟨lane_of_loaded py hrow, congrArg Prod.snd (hok _ hrow)⟩
    · intro e he
      refine ⟨herror e he, fun hwf => rowReading_ne_refused py hwf ?_⟩
      rw [← rowReading_eq py d .api]
      exact Reading.of_eq_refused he (herror e he)

/-- What the loop keeps of the dicts of the file. -/
def loaded (rows : List Dict) : List (Lane × LaneState) :=
  rows.filterMap fun d => (LaneState.ofDict py d).toOption

variable {py}

theorem loadRows_ok {items : List Value} (h : ∀ d ∈ items.filterMap dict?, RowFine py d) :
    loadRows py items = .ok (loaded py (items.filterMap dict?)) := by
  induction items with
  | nil => rfl
  | cons v rest ih =>
    cases v with
    | obj d =>
      rw [List.filterMap_cons_some (show dict? (.obj d) = some d from rfl)] at h ⊢
      obtain ⟨hd, hrest⟩ := List.forall_mem_cons.mp h
      unfold loadRows loaded
      cases hrow : LaneState.ofDict py d with
      | ok row =>
        dsimp only
        rw [ih hrest, List.filterMap_cons_some (b := row) (by rw [hrow]; rfl)]
        rfl
      | error e =>
        dsimp only
        rw [if_pos (hd.skipped e hrow).1, ih hrest, List.filterMap_cons_none (by rw [hrow]; rfl)]
        rfl
    | _ => exact ih h

theorem loaded_one {d : Dict} {row : Lane × LaneState} (h : LaneState.ofDict py d = .ok row) :
    loaded py [d] = [row] := by
  simp [loaded, h, Except.toOption]

theorem unloaded_one {d : Dict} {e : PyError} (h : LaneState.ofDict py d = .error e) :
    loaded py [d] = [] := by
  simp [loaded, h, Except.toOption]

theorem lookup_loaded {rows : List Dict} (h : ∀ d ∈ rows, RowFine py d) (l : Lane) :
    (∃ before d after, rows = before ++ d :: after ∧ Loads py d l ∧
      (∀ d' ∈ after, ¬ Loads py d' l) ∧
        (loaded py rows).reverse.lookup l = some (LaneState.asWritten d)) ∨
      (∀ d ∈ rows, ¬ Loads py d l) ∧ (loaded py rows).reverse.lookup l = none := by
  induction rows using List.reverseRecOn with
  | nil => exact .inr ⟨by simp, rfl⟩
  | append_singleton rows d ih =>
    rw [List.forall_mem_append, List.forall_mem_singleton] at h
    obtain ⟨hrows, hd⟩ := h
    have hsplit : (loaded py (rows ++ [d])).reverse = (loaded py [d]).reverse ++ (loaded py rows).reverse := by
      rw [loaded, List.filterMap_append, List.reverse_append]
      rfl
    by_cases hloads : Loads py d l
    · -- The last row is this one.
      obtain ⟨st, hrow⟩ := hloads
      obtain ⟨-, rfl⟩ := hd.loaded l st hrow
      refine .inl ⟨rows, d, [], rfl, ⟨_, hrow⟩, by simp, ?_⟩
      rw [hsplit, loaded_one hrow]
      simp
    · have hlookup : (loaded py (rows ++ [d])).reverse.lookup l = (loaded py rows).reverse.lookup l := by
        rw [hsplit]
        cases hrow : LaneState.ofDict py d with
        | error e => rw [unloaded_one hrow, List.reverse_nil, List.nil_append]
        | ok row =>
          obtain ⟨l', st⟩ := row
          have hne : (l == l') = false := by
            rw [beq_eq_false_iff_ne]
            rintro rfl
            exact hloads ⟨st, hrow⟩
          rw [loaded_one hrow, List.reverse_singleton, List.singleton_append, List.lookup_cons, hne]
      rw [hlookup]
      rcases ih hrows with ⟨before, e, after, rfl, he, hafter, hfound⟩ | ⟨hnone, hfound⟩
      · refine .inl ⟨before, e, after ++ [d], by simp, he, ?_, hfound⟩
        rw [List.forall_mem_append, List.forall_mem_singleton]
        exact ⟨hafter, hloads⟩
      · refine .inr ⟨?_, hfound⟩
        rw [List.forall_mem_append, List.forall_mem_singleton]
        exact ⟨hnone, hloads⟩

theorem laneFrom_seeded {rows : List Dict} (h : ∀ d ∈ rows, RowFine py d)
    (planCaps : Lane → Option Int) (windowS : ℚ) (l : Lane) :
    LaneFrom py rows planCaps windowS (seeded planCaps windowS (loaded py rows)) l := by
  unfold LaneFrom seeded
  rcases lookup_loaded h l with ⟨before, d, after, hsplit, hd, hafter, hfound⟩ | ⟨hnone, hfound⟩
  · exact .inl ⟨before, d, after, hsplit, hd, hafter, by rw [hfound, Option.getD_some]⟩
  · exact .inr ⟨hnone, by rw [hfound, Option.getD_none]⟩

variable (py)

/-- **When the tracker starts on a file.** -/
theorem trackerStarts_iff (content : Content) (planCaps : Lane → Option Int) (windowS : ℚ) :
    TrackerStarts py content planCaps windowS ↔ UsageSound py content := by
  have hnothing : ∀ d ∈ ([] : List Dict), RowFine py d := by simp
  cases content with
  | absent => exact iff_of_true ⟨_, rfl, hnothing, laneFrom_seeded hnothing planCaps windowS⟩ trivial
  | unreadable =>
    exact iff_of_true ⟨_, rfl, hnothing, laneFrom_seeded hnothing planCaps windowS⟩ trivial
  | tooDeep =>
    -- `json.loads` raises a RecursionError here, which `_load` does not catch.
    refine iff_of_false ?_ id
    rintro ⟨t, hopen, -⟩
    cases hopen
  | document v =>
    unfold UsageSound
    constructor
    · rintro ⟨t, hopen, hrows, -⟩
      unfold openTracker at hopen
      cases v with
      | obj data =>
        refine ⟨data, rfl, ?_, fun d hd => (rowFine_iff py d).mp (hrows d hd)⟩
        -- Of an object, `lanes` is the only part that is read.
        rw [← iter_ok_iff]
        cases hitems : (lanesField data).iter with
        | ok items => exact ⟨items, rfl⟩
        | error e => simp [hitems, bind, Except.bind] at hopen
      | _ => cases hopen
    · rintro ⟨data, rfl, hiter, hsound⟩
      obtain ⟨items, hitems⟩ := (iter_ok_iff _).mpr hiter
      have hrows : ∀ d ∈ rowsOf (.document (.obj data)), RowFine py d :=
        fun d hd => (rowFine_iff py d).mpr (hsound d hd)
      refine ⟨_, ?_, hrows, laneFrom_seeded hrows planCaps windowS⟩
      unfold rowsOf at hrows ⊢
      dsimp only at hrows ⊢
      rw [← iter_dicts hitems] at hrows ⊢
      unfold openTracker
      simp only [hitems, bind, Except.bind, loadRows_ok hrows]

end Start

/-! ## Files of rows with numbers alone -/

section Rows

variable (py : Builtins)

def Stored.toValue : Stored → Value
  | none => .null
  | some x => .float x

def EventRow.toDict (e : EventRow) : Dict :=
  [("ts", e.ts.toValue), ("tokens", e.tokens.toValue), ("requests", e.requests.toValue)]

def LaneRow.toDict (r : LaneRow) : Dict :=
  [("lane", .str r.lane.value), ("token_cap", r.tokenCap.toValue), ("window_s", r.windowS.toValue),
    ("events", .arr (r.events.map fun e => .obj e.toDict)), ("last_429_ts", r.last429Ts.toValue),
    ("reset_at", r.resetAt.toValue), ("reported_tokens_remaining", r.reportedTokensRemaining.toValue)]

theorem stored_int (n : Stored) (default : Int) :
    (n.toValue.or (.int default)).toInt py = (n.or (.finite default)).int := by
  cases n with
  | none => exact (Num.int_intCast default).symm
  | some x =>
    unfold Stored.toValue Stored.or Value.or
    by_cases hx : x = .finite 0
    · simp [hx, truthy, toInt]
    · simp [hx, truthy, toInt]

theorem stored_float (n : Stored) :
    (n.toValue.or (.float (.finite 0))).toFloat py = .ok (n.or (.finite 0)) := by
  cases n with
  | none => rfl
  | some x =>
    unfold Stored.toValue Stored.or Value.or
    by_cases hx : x = .finite 0
    · simp [hx, truthy, toFloat]
    · simp [hx, truthy, toFloat]

theorem stored_optFloat (n : Stored) : n.toValue.optFloat py = .ok n := by cases n <;> rfl

theorem stored_optInt (n : Stored) : n.toValue.optInt py = n.mapM Num.int := by
  cases n with
  | none => rfl
  | some x =>
    rw [Option.mapM_some]
    cases hx : x.int <;> simp [Stored.toValue, optInt, toInt, hx, Except.map, Functor.map]

theorem event_ofDict (e : EventRow) : Event.ofDict py e.toDict = e.fromDict := by
  have hts : get e.toDict "ts" = e.ts.toValue := rfl
  have htokens : get e.toDict "tokens" = e.tokens.toValue := rfl
  have hrequests : get e.toDict "requests" = e.requests.toValue := rfl
  have hzero := stored_int py e.tokens 0
  have hzero' := stored_int py e.requests 0
  unfold Event.ofDict EventRow.fromDict
  rw [hts, htokens, hrequests, stored_float, hzero, hzero']
  simp only [Int.cast_zero, bind, Except.bind]

theorem events_ofDict (r : LaneRow) : eventsOf py r.toDict = r.events.mapM EventRow.fromDict := by
  have hfield : (r.toDict.lookup "events").getD (.arr []) = .arr (r.events.map fun e => .obj e.toDict) := rfl
  have hdicts : (r.events.map fun e => Value.obj e.toDict).filterMap dict? = r.events.map EventRow.toDict := by
    rw [List.filterMap_map]
    exact congrFun List.filterMap_eq_map r.events
  have hread : Event.ofDict py ∘ EventRow.toDict = EventRow.fromDict := funext (event_ofDict py)
  unfold eventsOf
  rw [hfield, iter]
  simp only [bind, Except.bind]
  rw [hdicts, List.mapM_map, hread]

/-- The two models of `from_dict` agree. -/
theorem row_ofDict (r : LaneRow) :
    LaneState.ofDict py r.toDict = r.fromDict.map fun st => (r.lane, st) := by
  have hlane : laneOf py r.toDict = .ok r.lane := by
    apply (laneOf_ok_iff py r.toDict r.lane).mpr
    exact named_value r.lane
  have hcap : get r.toDict "token_cap" = r.tokenCap.toValue := rfl
  have hwindow : get r.toDict "window_s" = r.windowS.toValue := rfl
  have hlast : get r.toDict "last_429_ts" = r.last429Ts.toValue := rfl
  have hreset : get r.toDict "reset_at" = r.resetAt.toValue := rfl
  have hreported : get r.toDict "reported_tokens_remaining" = r.reportedTokensRemaining.toValue :=
    rfl
  rw [ofDict_eq, hlane, hcap, hwindow, hlast,
    hreset, hreported, events_ofDict, stored_int, stored_int, stored_optFloat,
    stored_optFloat, stored_optInt]
  unfold LaneRow.fromDict
  simp only [Reading.map_eq_bind, Reading.pair, bind_assoc, pure_bind, buildRow, Int.cast_zero]
  rfl

theorem loadRows_rows (rows : List LaneRow) :
    loadRows py (rows.map fun r => .obj r.toDict) = loadLanes rows := by
  induction rows with
  | nil => rfl
  | cons r rest ih =>
    rw [List.map_cons, loadRows, row_ofDict, loadLanes]
    cases r.fromDict with
    | ok st =>
      simp only [Except.map]
      rw [ih]
    | error e =>
      cases e <;> simp only [Except.map, caught, Bool.false_eq_true, if_true, if_false, ih]

/-- On such a file the tracker is the one of `UsageTracker.new`. -/
theorem openTracker_rows (rows : List LaneRow) (planCaps : Lane → Option Int) (windowS : ℚ) :
    openTracker py (.document (.obj [("lanes",
      .arr (rows.map fun r => .obj r.toDict))])) planCaps windowS =
      ((UsageTracker.new (some rows) planCaps windowS).map UsageTracker.lanes).mapError Escape.program := by
  have hfield : lanesField [("lanes", .arr (rows.map fun r => .obj r.toDict))] =
      .arr (rows.map fun r => .obj r.toDict) := rfl
  unfold openTracker UsageTracker.new
  dsimp only
  rw [hfield, iter]
  simp only [bind, Except.bind, Option.getD_some, loadRows_rows]
  cases loadLanes rows <;> rfl

end Rows

end Swarm.Usage
