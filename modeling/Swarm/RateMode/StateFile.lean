import Swarm.RateMode.Code
import Swarm.Usage.StateFile

/-! # The governor, and the tracker with it, that are opened on any files -/

namespace Swarm.RateMode

open Lib Usage Value

/-! ## The reader -/

def Mode.value : Mode → String
  | .cheapPlans => "cheap_plans"
  | .apiSwarm => "api_swarm"
  | .throttled => "throttled"

/-- The mode with this value. -/
def Mode.named (v : Value) : Option Mode :=
  v.str?.bind fun s => [Mode.cheapPlans, .apiSwarm, .throttled].find? (·.value == s)

/-- `_GovernorState` as it comes from the file, with the day as any text. -/
structure LoadedState where
  mode : Mode
  modeSince : Option Num
  apiSpendUsd : Num
  apiSpendDay : String
  deriving DecidableEq, Repr

def LoadedState.fresh : LoadedState := ⟨.cheapPlans, none, .finite 0, ""⟩

section Code

variable (py : Builtins)

/-- `Mode(v)` -/
def Mode.ofValue (v : Value) : Except PyError Mode :=
  match Mode.named v with
  | some m => .ok m
  | none => .error (.valueError (py.repr v ++ " is not a valid Mode"))

def LoadedState.ofDict (d : Dict) : Except PyError LoadedState := do
  let mode ← Mode.ofValue py ((d.lookup "mode").getD (.str Mode.cheapPlans.value))
  let modeSince ← (get d "mode_since").optFloat py
  let apiSpendUsd ← ((get d "api_spend_usd").or (.float (.finite 0))).toFloat py
  return ⟨mode, modeSince, apiSpendUsd, ((get d "api_spend_day").or (.str "")).toStr py⟩

/-- `Governor(path=…)` -/
def openGovernor (content : Content) : Except Escape LoadedState :=
  match content with
  | .absent | .unreadable => .ok .fresh
  | .tooDeep => .error .recursionError
  | .document (.obj d) =>
    match LoadedState.ofDict py d with
    | .ok s => .ok s
    | .error e => if caught e then .ok .fresh else .error (.program e)
  | .document v =>
    .error (.program (.attributeError ("'" ++ v.typeName ++ "' object has no attribute 'get'")))

end Code

/-! ## What a document says -/

def modeNamed (d : Dict) : Option Mode :=
  Mode.named ((d.lookup "mode").getD (.str Mode.cheapPlans.value))

/-- Each field as written where it has its shape, and its default where not. -/
def LoadedState.asWritten (d : Dict) : LoadedState where
  mode := (modeNamed d).getD .cheapPlans
  modeSince := (get d "mode_since").num?
  apiSpendUsd := (get d "api_spend_usd").num?.getD (.finite 0)
  apiSpendDay := (get d "api_spend_day").str?.getD ""

/-- The shape that `to_dict` gives a state. -/
structure LoadedState.WellFormed (d : Dict) : Prop where
  mode : ∃ m : Mode, d.lookup "mode" = some (.str m.value)
  modeSince : get d "mode_since" = .null ∨ (get d "mode_since").num?.isSome = true
  apiSpendUsd : (get d "api_spend_usd").num?.isSome = true
  apiSpendDay : (get d "api_spend_day").str?.isSome = true

section Readings

variable (py : Builtins)

def modeReading (d : Dict) : Reading := if (modeNamed d).isSome then .faithful else .refused

/-- `str(v or "")` takes anything for a day. -/
def dayReading (v : Value) : Reading :=
  if v.truthy = true ∧ v.str? = none then .changed else .faithful

/-- The fields in the order of `from_dict`. -/
def stateReading (d : Dict) : Reading :=
  (modeReading d).and <| (optFloatReading py (get d "mode_since")).and <|
    (floatReading py (get d "api_spend_usd")).and <| dayReading (get d "api_spend_day")

theorem modeReading_eq (d : Dict) :
    Reading.of caught (Mode.ofValue py ((d.lookup "mode").getD (.str Mode.cheapPlans.value)))
      ((modeNamed d).getD .cheapPlans) = modeReading d := by
  unfold modeReading modeNamed Mode.ofValue
  cases Mode.named ((d.lookup "mode").getD (.str Mode.cheapPlans.value)) with
  | some m => exact Reading.of_same m
  | none => rfl

theorem dayReading_eq (v : Value) :
    Reading.of caught (.ok ((v.or (.str "")).toStr py) : Except PyError String) (v.str?.getD "") =
      dayReading v := by
  unfold dayReading
  cases htruthy : v.truthy with
  | false =>
    rw [or_false htruthy, if_neg (by simp)]
    cases v with
    | str s =>
      obtain rfl : s = "" := by simpa [truthy] using htruthy
      exact Reading.of_same ""
    | _ => exact Reading.of_same ""
  | true =>
    rw [or_true htruthy]
    cases v with
    | str s =>
      rw [if_neg (by simp [str?])]
      exact Reading.of_same s
    | _ =>
      rw [if_pos ⟨rfl, rfl⟩, Reading.of_ok]
      exact if_neg (py.repr_ne _)

theorem stateReading_eq (d : Dict) :
    Reading.of caught (LoadedState.ofDict py d) (LoadedState.asWritten d) = stateReading py d := by
  let build : Mode × Option Num × Num × String → LoadedState :=
    fun p => ⟨p.1, p.2.1, p.2.2.1, p.2.2.2⟩
  have hbuild : Function.Injective build := by
    rintro ⟨a, b, c, e⟩ ⟨a', b', c', e'⟩ h
    simpa [build] using h
  have hread : LoadedState.ofDict py d =
      (Reading.pair (Mode.ofValue py ((d.lookup "mode").getD (.str Mode.cheapPlans.value))) <|
        Reading.pair ((get d "mode_since").optFloat py) <|
        Reading.pair (((get d "api_spend_usd").or (.float (.finite 0))).toFloat py)
          (.ok (((get d "api_spend_day").or (.str "")).toStr py))).map build := by
    simp only [LoadedState.ofDict, Reading.map_eq_bind, Reading.pair, bind_assoc, pure_bind, build]
    rfl
  have hwritten : LoadedState.asWritten d = build
      ((modeNamed d).getD .cheapPlans, (get d "mode_since").num?, (get d "api_spend_usd").num?.getD (.finite 0),
        (get d "api_spend_day").str?.getD "") := rfl
  rw [hread, hwritten, Reading.of_map hbuild]
  simp only [Reading.of_pair, modeReading_eq, optFloatReading_eq, floatReading_eq, dayReading_eq]
  rfl

theorem named_value (m : Mode) : Mode.named (.str m.value) = some m := by cases m <;> decide

theorem stateReading_ne_refused {d : Dict} (h : LoadedState.WellFormed d) :
    stateReading py d ≠ .refused := by
  obtain ⟨⟨m, hm⟩, hsince, hspend, -⟩ := h
  have hmode : modeReading d ≠ .refused := by
    unfold modeReading modeNamed
    rw [hm, Option.getD_some, named_value]
    exact nofun
  unfold stateReading
  apply Reading.and_ne_refused hmode
  apply Reading.and_ne_refused (optFloatReading_ne_refused py hsince)
  apply Reading.and_ne_refused (floatReading_ne_refused py hspend)
  unfold dayReading
  split <;> decide

/-- The file of a state, the rounding of `to_dict` apart. -/
def LoadedState.file (s : LoadedState) : Dict :=
  [("mode", .str s.mode.value), ("mode_since", Stored.toValue s.modeSince), ("api_spend_usd", .float s.apiSpendUsd),
    ("api_spend_day", .str s.apiSpendDay)]

/-- `from_dict` gives back what the file holds. -/
theorem file_ofDict (s : LoadedState) : LoadedState.ofDict py s.file = .ok s := by
  have hmode : (s.file.lookup "mode").getD (.str Mode.cheapPlans.value) = .str s.mode.value := rfl
  have hsince : get s.file "mode_since" = Stored.toValue s.modeSince := rfl
  have hspend : get s.file "api_spend_usd" = Stored.toValue (some s.apiSpendUsd) := rfl
  have hday : ((get s.file "api_spend_day").or (.str "")).toStr py = s.apiSpendDay := by
    have hfield : get s.file "api_spend_day" = .str s.apiSpendDay := rfl
    rw [hfield]
    by_cases hempty : s.apiSpendDay = ""
    · rw [or_false (by simp [truthy, hempty]), hempty]
      rfl
    · rw [or_true (by simpa [truthy] using hempty)]
      rfl
  have hzero : Stored.or (some s.apiSpendUsd) (.finite 0) = s.apiSpendUsd := by
    unfold Stored.or
    dsimp only
    split
    · next h => exact h.symm
    · rfl
  unfold LoadedState.ofDict Mode.ofValue
  rw [hmode, named_value, hsince, stored_optFloat, hspend, stored_float, hzero, hday]
  rfl

end Readings

/-! ## What a start should give -/

section Start

variable (py : Builtins)

/-- The state is loaded with each field as written or at its default, or it is malformed and
dropped. -/
structure StateFine (d : Dict) : Prop where
  loaded : ∀ s, LoadedState.ofDict py d = .ok s → s = LoadedState.asWritten d
  dropped : ∀ e, LoadedState.ofDict py d = .error e → caught e = true ∧ ¬ LoadedState.WellFormed d

/-- The constructor returns, and what it returns is what the file says. -/
def GovernorStarts (content : Content) : Prop :=
  ∃ s, openGovernor py content = .ok s ∧
    (∀ d, content = .document (.obj d) →
      StateFine py d ∧ (s = LoadedState.asWritten d ∨ s = .fresh ∧ ¬ LoadedState.WellFormed d)) ∧
    ((∀ d, content ≠ .document (.obj d)) → s = .fresh)

/-- The text is no JSON, or an object that is read soundly. -/
def GovernorSound : Content → Prop
  | .absent | .unreadable => True
  | .tooDeep => False
  | .document v => ∃ d, v = .obj d ∧ (stateReading py d).Sound

theorem stateFine_iff (d : Dict) : StateFine py d ↔ (stateReading py d).Sound := by
  rw [← stateReading_eq py d, Reading.sound_iff]
  constructor
  · exact fun h => ⟨h.loaded, fun e he => (h.dropped e he).1⟩
  · rintro ⟨hok, herror⟩
    refine ⟨hok, fun e he => ⟨herror e he, fun hwf => stateReading_ne_refused py hwf ?_⟩⟩
    rw [← stateReading_eq]
    exact Reading.of_eq_refused he (herror e he)

theorem governorStarts_iff (content : Content) :
    GovernorStarts py content ↔ GovernorSound py content := by
  cases content with
  | absent => exact iff_of_true ⟨.fresh, rfl, nofun, fun _ => rfl⟩ trivial
  | unreadable => exact iff_of_true ⟨.fresh, rfl, nofun, fun _ => rfl⟩ trivial
  | tooDeep =>
    refine iff_of_false ?_ id
    rintro ⟨s, hopen, -⟩
    cases hopen
  | document v =>
    unfold GovernorSound
    constructor
    · rintro ⟨s, hopen, hfrom, -⟩
      cases v with
      | obj d => exact ⟨d, rfl, (stateFine_iff py d).mp (hfrom d rfl).1⟩
      | _ => cases hopen
    · rintro ⟨d, rfl, hsound⟩
      have hfine := (stateFine_iff py d).mpr hsound
      cases hread : LoadedState.ofDict py d with
      | ok s =>
        refine ⟨s, by simp [openGovernor, hread], ?_, fun hnone => absurd rfl (hnone d)⟩
        rintro d' heq
        cases heq
        exact ⟨hfine, .inl (hfine.loaded s hread)⟩
      | error e =>
        obtain ⟨hcaught, hmalformed⟩ := hfine.dropped e hread
        refine ⟨.fresh, by simp [openGovernor, hread, hcaught], ?_, fun hnone => absurd rfl (hnone d)⟩
        rintro d' heq
        cases heq
        exact ⟨hfine, .inr ⟨rfl, hmalformed⟩⟩

/-- **When the state files do not stop a start.** -/
theorem starts_iff (usage governor : Content) (planCaps : Lane → Option Int) (windowS : ℚ) :
    TrackerStarts py usage planCaps windowS ∧ GovernorStarts py governor ↔
      UsageSound py usage ∧ GovernorSound py governor := by
  rw [trackerStarts_iff, governorStarts_iff]

end Start

/-- Decimal digits alone, and a name for each type. -/
def digitsOnly : Builtins where
  int s := s.toInt?
  float s := s.toInt?.map fun n => .finite n
  repr v := "<" ++ v.typeName ++ ">"
  repr_ne v := by simp

/-- `usage.json` is an empty list. -/
theorem list_stops_start :
    openTracker digitsOnly (.document (.arr [])) (fun _ => none) 18000 =
        .error (.program (.attributeError "'list' object has no attribute 'get'")) ∧
      ¬ (TrackerStarts digitsOnly (.document (.arr [])) (fun _ => none) 18000 ∧
        GovernorStarts digitsOnly .absent) := by
  refine ⟨rfl, ?_⟩
  rintro ⟨⟨t, hopen, -⟩, -⟩
  cases hopen

end Swarm.RateMode
