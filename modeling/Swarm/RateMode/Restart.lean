import Swarm.RateMode.Budget

/-! # The governor that is replaced by one on the same file -/

namespace Swarm.RateMode

open Usage

/-- A new `Governor` on the path. `from_dict` gives back what the file holds. -/
def Governor.load (file : Option GovernorState) : Governor := ⟨file.getD .fresh, file⟩

inductive Move
  | event (e : Event)
  | restart

def Move.event? : Move → Option Event
  | .event e => some e
  | .restart => none

/-- The moves without the replacements. -/
def events (moves : List Move) : List Event := moves.filterMap Move.event?

def restarts (moves : List Move) : Nat := (moves.filter fun m => m.event?.isNone).length

section Moves

variable (cfg : GovernorConfig)

def stepMove (p : Process) : Move → Process
  | .event e => step cfg p e
  | .restart => { p with governor := .load p.governor.file }

def playMoves (p : Process) (moves : List Move) : Process := moves.foldl (stepMove cfg) p

def recordMove (p : Process) : Move → List Record
  | .event e => record cfg p e
  | .restart => []

def traceMoves (p : Process) : List Move → List Record
  | [] => []
  | m :: moves => recordMove cfg p m ++ traceMoves (stepMove cfg p m) moves

theorem playMoves_snoc (p : Process) (moves : List Move) (m : Move) :
    playMoves cfg p (moves ++ [m]) = stepMove cfg (playMoves cfg p moves) m := by simp [playMoves]

theorem playMoves_append (p : Process) (moves moves' : List Move) :
    playMoves cfg p (moves ++ moves') = playMoves cfg (playMoves cfg p moves) moves' :=
  List.foldl_append

theorem traceMoves_snoc (p : Process) (moves : List Move) (m : Move) :
    traceMoves cfg p (moves ++ [m]) =
      traceMoves cfg p moves ++ recordMove cfg (playMoves cfg p moves) m := by
  induction moves generalizing p with
  | nil => simp [traceMoves, playMoves]
  | cons m' moves ih =>
    rw [List.cons_append, traceMoves, ih, traceMoves, List.append_assoc]
    rfl

end Moves

/-- When a decision was taken, its mode and its lane. -/
def outcomes (rs : List Record) : List (ℚ × Mode × Lane) :=
  rs.map fun r => (r.now, r.decision.mode, r.decision.lane)

/-! ## The rounding of the file -/

/-- A whole number of millionths, or not finite. -/
def Micro : Num → Prop
  | .finite q => ∃ n : ℤ, q * 10 ^ 6 = n
  | _ => True

theorem micro_zero : Micro (.finite 0) := ⟨0, by simp⟩

theorem Micro.add {a b : Num} (ha : Micro a) (hb : Micro b) : Micro (a.add b) := by
  cases a with
  | finite p =>
    cases b with
    | finite q =>
      obtain ⟨m, hm⟩ := ha
      obtain ⟨n, hn⟩ := hb
      exact ⟨m + n, by rw [add_mul, hm, hn, Int.cast_add]⟩
    | inf _ => trivial
    | nan => trivial
  | inf negative =>
    cases b with
    | inf negative' => by_cases hsign : negative = negative' <;> simp [Num.add, hsign, Micro]
    | _ => trivial
  | nan => trivial

theorem Micro.round {a : Num} (h : Micro a) : a.round 6 = a := by
  cases a with
  | finite q => exact congrArg Num.finite (Lib.roundTo_of_int h)
  | _ => rfl

/-- Equal, or apart by no more than the rounding of `k` replacements. -/
def Near (k : Nat) (a b : Num) : Prop :=
  a = b ∨ ∃ x y : ℚ, a = .finite x ∧ b = .finite y ∧ |y - x| ≤ k * (1 / 2 / 10 ^ 6)

theorem Near.mono {j k : Nat} {a b : Num} (h : Near j a b) (hle : j ≤ k) : Near k a b := by
  rcases h with rfl | ⟨x, y, rfl, rfl, hxy⟩
  · exact .inl rfl
  · exact .inr ⟨x, y, rfl, rfl, hxy.trans (by gcongr)⟩

theorem Near.add {k : Nat} {a b : Num} (h : Near k a b) (usd : Num) :
    Near k (a.add usd) (b.add usd) := by
  rcases h with rfl | ⟨x, y, rfl, rfl, hxy⟩
  · exact .inl rfl
  · cases usd with
    | finite u => exact .inr ⟨x + u, y + u, rfl, rfl, by rwa [add_sub_add_right_eq_sub]⟩
    | inf _ => exact .inl rfl
    | nan => exact .inl rfl

theorem Near.round {k : Nat} {a b : Num} (h : Near k a b) : Near (k + 1) a (b.round 6) := by
  have hzero : Near k a b → (∀ q, b ≠ .finite q) → Near (k + 1) a (b.round 6) := by
    rintro (rfl | ⟨_, y, -, rfl, -⟩) hb
    · left
      cases a with
      | finite q => exact absurd rfl (hb q)
      | _ => rfl
    · exact absurd rfl (hb y)
  cases b with
  | finite y =>
    obtain ⟨x, rfl, hxy⟩ : ∃ x, a = .finite x ∧ |y - x| ≤ k * (1 / 2 / 10 ^ 6) := by
      rcases h with rfl | ⟨x, y', rfl, hy, hxy⟩
      · exact ⟨y, rfl, by rw [sub_self, abs_zero]; positivity⟩
      · cases hy
        exact ⟨x, rfl, hxy⟩
    refine .inr ⟨x, Lib.roundTo 6 y, rfl, rfl, ?_⟩
    calc |Lib.roundTo 6 y - x| ≤ |Lib.roundTo 6 y - y| + |y - x| := abs_sub_le _ _ _
      _ ≤ 1 / 2 / 10 ^ 6 + k * (1 / 2 / 10 ^ 6) := add_le_add (Lib.abs_roundTo_sub_le 6 y) hxy
      _ = ((k + 1 : Nat) : ℚ) * (1 / 2 / 10 ^ 6) := by push_cast; ring
  | inf _ => exact hzero h (by simp)
  | nan => exact hzero h (by simp)

/-- The budget is further from the spend than the rounding of `k` replacements can take it. -/
def Clear (budget spend : Num) (k : Nat) : Prop :=
  match budget, spend with
  | .finite b, .finite x => x + k * (1 / 2 / 10 ^ 6) < b ∨ b ≤ x - k * (1 / 2 / 10 ^ 6)
  | _, _ => True

theorem Clear.over {cfg : GovernorConfig} {k : Nat} {a b : Num}
    (h : Clear cfg.apiDailyBudgetUsd a k) (hnear : Near k a b) :
    overBudget cfg b = overBudget cfg a := by
  rcases hnear with rfl | ⟨x, y, rfl, rfl, hxy⟩
  · rfl
  · unfold overBudget
    cases hb : cfg.apiDailyBudgetUsd with
    | finite budget =>
      rw [hb] at h
      rw [abs_le] at hxy
      simp only [Num.le, decide_eq_decide]
      rcases h with h | h
      · constructor <;> intro <;> linarith
      · constructor <;> intro <;> linarith
    | inf _ => rfl
    | nan => rfl

/-! ## The two runs -/

/-- The file holds the state, but for the rounding. -/
def Saved (g : Governor) : Prop := g.file.getD .fresh = g.state ∨
    g.file.getD .fresh = g.state.toDict

theorem load_saved (file : Option GovernorState) : Saved (.load file) := .inl rfl

theorem save_saved (g : Governor) : Saved g.save := .inr rfl

theorem rollDay_saved {g : Governor} (h : Saved g) (today : Int) : Saved (g.rollDay today) := by
  unfold Governor.rollDay
  split
  · exact h
  · exact save_saved _

theorem stamp_saved {g : Governor} (h : Saved g) (now : ℚ) : Saved (g.stamp now) := by
  unfold Governor.stamp
  split
  · exact h
  · exact save_saved _

theorem transition_saved {g : Governor} (h : Saved g) (m : Mode) (now : ℚ) :
    Saved (g.transition m now) := by
  unfold Governor.transition
  split
  · exact h
  · exact save_saved _

theorem recordApiSpend_saved {g : Governor} (h : Saved g) (usd : Num) (now : ℚ) :
    Saved (g.recordApiSpend usd now).2 := by
  unfold Governor.recordApiSpend
  split
  · exact h
  · split
    · exact h
    · exact save_saved _

variable {cfg : GovernorConfig}

theorem decide_saved (cfg : GovernorConfig) {g : Governor} (h : Saved g) (tracker : Tracker)
    (now : ℚ) :
    Saved (g.decide cfg tracker now).2 := by
  unfold Governor.decide
  split
  · exact h
  · exact transition_saved (stamp_saved (rollDay_saved h _) now) _ now

theorem step_saved (cfg : GovernorConfig) {q : Process} (h : Saved q.governor) (e : Event) :
    Saved (step cfg q e).governor := by
  cases e with
  | usage _ => exact h
  | spend usd now => exact recordApiSpend_saved h usd now
  | decide now => exact decide_saved cfg h q.tracker now

/-! ## The counter of a day -/

theorem heldFor_rolled {s : GovernorState} {today : Int} (day : Int)
    (h : s.apiSpendDay = .date today) :
    heldFor day s = if today = day then s.apiSpendUsd else .finite 0 := by
  simp only [heldFor, h, DayText.date.injEq]

theorem heldFor_toDict (day : Int) (s : GovernorState) :
    heldFor day s.toDict = (heldFor day s).round 6 := by
  by_cases hday : s.apiSpendDay = .date day
  · have hheld : heldFor day s = s.apiSpendUsd := if_pos hday
    rw [hheld]
    exact if_pos hday
  · have hheld : heldFor day s = .finite 0 := if_neg hday
    rw [hheld, micro_zero.round]
    exact if_neg hday

theorem Near.adds {k : Nat} {a b : Num} (h : Near k a b) (e : Event) :
    Near k (e.adds a) (e.adds b) := by
  cases e with
  | spend usd now => exact h.add usd
  | _ => exact h

theorem Micro.adds {e : Event} {day : Int} {held : Num} (h : Micro held)
    (hroll : e.rollsTo = some day) (husd : ∀ usd, e.spentOn day = some usd → Micro usd) :
    Micro (e.adds held) := by
  rw [adds_spentOn hroll]
  cases hspent : e.spentOn day with
  | none => exact h
  | some usd => exact h.add (husd usd hspent)

/-- The counters of `p` and of `q`, which was replaced `k` times since they agreed, as a call on
the day finds them. `exact` says that nothing was rounded away. -/
structure Counters (day : Int) (k : Nat) (exact : Prop) (p q : Process) : Prop where
  saved : Saved q.governor
  date : q.governor.state.apiSpendDay = p.governor.state.apiSpendDay
  near : Near k (heldFor day p.governor.state) (heldFor day q.governor.state)
  same : exact → heldFor day q.governor.state = heldFor day p.governor.state ∧ Micro (heldFor day p.governor.state)

variable {day : Int} {k : Nat} {exact : Prop} {p q : Process}

theorem Counters.start (day : Int) (file : Option GovernorState) (tracker : Tracker) :
    Counters day 0 (Micro (heldFor day (Governor.load file).state))
      ⟨.load file, tracker⟩ ⟨.load file, tracker⟩ :=
  ⟨load_saved file, rfl, .inl rfl, fun h => ⟨rfl, h⟩⟩

theorem Counters.other (h : Counters day k exact p q)
    (hday : p.governor.state.apiSpendDay ≠ .date day) :
    Counters day 0 True p q := by
  have hp : heldFor day p.governor.state = .finite 0 := if_neg hday
  have hq : heldFor day q.governor.state = .finite 0 := if_neg (h.date ▸ hday)
  refine ⟨h.saved, h.date, .inl (hp.trans hq.symm), fun _ => ⟨hq.trans hp.symm, ?_⟩⟩
  rw [hp]
  exact micro_zero

theorem Counters.restart (h : Counters day k exact p q) :
    Counters day (k + 1) exact p { q with governor := .load q.governor.file } := by
  have hlater : Near (k + 1) (heldFor day p.governor.state) (heldFor day q.governor.state) :=
    h.near.mono k.le_succ
  rcases h.saved with hfile | hfile
  · have hload : (Governor.load q.governor.file).state = q.governor.state := hfile
    constructor <;> dsimp only
    · exact load_saved _
    · rw [hload, h.date]
    · rwa [hload]
    · rw [hload]
      exact h.same
  · have hload : (Governor.load q.governor.file).state = q.governor.state.toDict := hfile
    constructor <;> dsimp only
    · exact load_saved _
    · rw [hload]
      exact h.date
    · rw [hload, heldFor_toDict]
      exact h.near.round
    · rw [hload, heldFor_toDict]
      intro hexact
      obtain ⟨heq, hmicro⟩ := h.same hexact
      exact ⟨by rw [heq, hmicro.round], hmicro⟩

theorem Counters.event (cfg : GovernorConfig) (h : Counters day k exact p q) (e : Event) :
    Counters day k (exact ∧ ∀ usd, e.spentOn day = some usd →
      Micro usd) (step cfg p e) (step cfg q e) := by
  have hp := step_rolls cfg p e
  have hq := step_rolls cfg q e
  have hsaved := step_saved cfg h.saved e
  cases hroll : e.rollsTo with
  | none =>
    -- An event that rolls no day adds nothing.
    rw [hroll] at hp hq
    refine ⟨hsaved, ?_, ?_, ?_⟩
    · rw [hp, hq, h.date]
    · rw [hp, hq]
      exact h.near
    · rw [hp, hq]
      exact fun hexact => h.same hexact.1
  | some today =>
    -- Both roll to the same day, which clears what they hold of another.
    rw [hroll] at hp hq
    refine ⟨hsaved, hq.1.trans hp.1.symm, ?_, ?_⟩
    · rw [heldFor_rolled day hp.1, heldFor_rolled day hq.1]
      split
      · next heq =>
        rw [hp.2, hq.2, heq]
        exact h.near.adds e
      · exact .inl rfl
    · rintro ⟨hexact, husd⟩
      obtain ⟨heq, hmicro⟩ := h.same hexact
      rw [heldFor_rolled day hp.1, heldFor_rolled day hq.1]
      split
      · next htoday =>
        subst htoday
        rw [hp.2, hq.2, heq]
        exact ⟨rfl, hmicro.adds hroll husd⟩
      · exact ⟨rfl, micro_zero⟩

theorem events_snoc (moves : List Move) (e : Event) :
    events (moves ++ [.event e]) = events moves ++ [e] := by
  simp [events, Move.event?]

theorem events_append (moves moves' : List Move) :
    events (moves ++ moves') = events moves ++ events moves' :=
  List.filterMap_append

theorem events_restart (moves : List Move) : events (moves ++ [.restart]) = events moves := by
  simp [events, Move.event?]

theorem restarts_snoc (moves : List Move) (e : Event) :
    restarts (moves ++ [.event e]) = restarts moves := by
  simp [restarts, Move.event?]

theorem restarts_restart (moves : List Move) :
    restarts (moves ++ [.restart]) = restarts moves + 1 := by
  simp [restarts, Move.event?]

/-- The events of a stretch with replacements, beside the same events without them. -/
theorem Counters.moves (cfg : GovernorConfig) (h : Counters day k exact p q) (moves : List Move) :
    Counters day (k + restarts moves)
      (exact ∧ ∀ usd ∈ (events moves).filterMap (Event.spentOn day), Micro usd)
      (play cfg p (events moves)) (playMoves cfg q moves) := by
  induction moves using List.reverseRecOn with
  | nil => exact { h with same := fun hexact => h.same hexact.1 }
  | append_singleton moves m ih =>
    rw [playMoves_snoc]
    cases m with
    | restart =>
      rw [events_restart, restarts_restart, ← Nat.add_assoc]
      exact ih.restart
    | event e =>
      have hstep := ih.event cfg e
      rw [events_snoc, restarts_snoc, play_snoc]
      refine { hstep with same := fun hexact => hstep.same ⟨⟨hexact.1, fun usd hmem => ?_⟩, fun usd hspent => ?_⟩ }
      · refine hexact.2 usd ?_
        rw [List.filterMap_append]
        exact List.mem_append_left _ hmem
      · refine hexact.2 usd ?_
        simp [List.filterMap_append, hspent]

/-! ## The same modes and lanes -/

/-- `q` stands where `p` does, but for the counters. -/
structure Twin (p q : Process) : Prop where
  tracker : q.tracker = p.tracker
  mode : q.governor.state.mode = p.governor.state.mode
  since : q.governor.state.modeSince = p.governor.state.modeSince

theorem Twin.restart (h : Twin p q) (hsaved : Saved q.governor) :
    Twin p { q with governor := .load q.governor.file } := by
  have hload : (Governor.load q.governor.file).state.mode = q.governor.state.mode ∧
      (Governor.load q.governor.file).state.modeSince = q.governor.state.modeSince := by
    rcases hsaved with hfile | hfile
    · exact ⟨congrArg (·.mode) hfile, congrArg (·.modeSince) hfile⟩
    · exact ⟨congrArg (·.mode) hfile, congrArg (·.modeSince) hfile⟩
  exact ⟨h.tracker, hload.1.trans h.mode, hload.2.trans h.since⟩

theorem Twin.spend (h : Twin p q) (usd : Num) (now : ℚ) :
    Twin (step cfg p (.spend usd now)) (step cfg q (.spend usd now)) := by
  obtain ⟨hpm, hps⟩ := recordApiSpend_keeps p.governor usd now
  obtain ⟨hqm, hqs⟩ := recordApiSpend_keeps q.governor usd now
  constructor <;> simp only [step]
  · exact h.tracker
  · rw [hqm, hpm, h.mode]
  · rw [hqs, hps, h.since]

theorem target_congr (cfg : GovernorConfig) (snap : Snapshot) (now : ℚ) (since : Num)
    (current : Mode) {spend spend' : Num} (h : overBudget cfg spend' = overBudget cfg spend) :
    (target cfg snap now since spend' current).1 = (target cfg snap now since spend current).1 := by
  unfold target
  rw [h]
  split
  · rfl
  · rfl

theorem Twin.decide (h : Twin p q) (now : ℚ)
    (hover : ∀ today, utcDay now = .ok today →
      overBudget cfg (heldFor today q.governor.state) =
        overBudget cfg (heldFor today p.governor.state)) :
    Twin (step cfg p (.decide now)) (step cfg q (.decide now)) ∧
      outcomes (record cfg q (.decide now)) = outcomes (record cfg p (.decide now)) := by
  cases hday : utcDay now with
  | error e =>
    -- A time beyond the calendar raises in both.
    have hraise : ∀ r : Process, r.governor.decide cfg r.tracker now = (.error e, r.governor) := by
      intro r
      simp only [Governor.decide, hday]
    simp only [step, record, hraise]
    exact ⟨h, trivial⟩
  | ok today =>
    obtain ⟨d, hd, hlane⟩ := decide_ok cfg p.governor p.tracker hday
    obtain ⟨d', hd', hlane'⟩ := decide_ok cfg q.governor q.tracker hday
    obtain ⟨_, hday₁, hmode, hchanged, -, hm, hs, -, -⟩ := decide_spec hd
    obtain ⟨_, hday₂, hmode', hchanged', -, hm', hs', -, -⟩ := decide_spec hd'
    obtain rfl := Except.ok.inj (hday.symm.trans hday₁)
    obtain rfl := Except.ok.inj (hday.symm.trans hday₂)
    rw [(rollDay_spec _ _).2] at hmode hmode'
    -- The spend of the day decides through the budget only.
    have hd_mode : d'.mode = d.mode := by
      rw [hmode, hmode', h.tracker, h.since, h.mode]
      exact target_congr cfg _ now _ _ (hover today hday)
    have hd_changed : d'.changed = d.changed := by
      rw [Bool.eq_iff_iff, hchanged, hchanged', hd_mode, h.mode]
    constructor
    · constructor <;> simp only [step]
      · exact h.tracker
      · rw [hm, hm', hd_mode]
      · rw [hs, hs', hd_changed, h.since]
    · have hrecord : ∀ {r : Process} {d : Decision}, (r.governor.decide cfg r.tracker now).1 = .ok d →
          outcomes (record cfg r (.decide now)) = [(now, d.mode, d.lane)] := by
        intro r d hr
        simp [record, hr, outcomes]
      rw [hrecord hd, hrecord hd', hlane, hlane', hd_mode, h.tracker]

/-! ## Any points of replacement -/

/-- What stands in the counter of a day, and every spend of that day since, are whole numbers of
millionths. -/
def AllMicro (day : Int) (p : Process) (es : List Event) : Prop :=
  Micro (heldFor day p.governor.state) ∧ ∀ usd ∈ es.filterMap (Event.spentOn day), Micro usd

/-- No rounding can have moved the day's spend across the budget: none since the start, or since a
moment at which the counter was of another day. -/
def Safe (cfg : GovernorConfig) (start : Process) (before : List Move) (now : ℚ) : Prop :=
  ∀ today, utcDay now = .ok today → ∃ earlier current, before = earlier ++ current ∧
    (earlier = [] ∨ (play cfg start (events earlier)).governor.state.apiSpendDay ≠ .date today) ∧
    (AllMicro today (play cfg start (events earlier)) (events current) ∨
      Clear cfg.apiDailyBudgetUsd (heldFor today (play cfg start (events before)).governor.state)
        (restarts current))

theorem Safe.agrees {file : Option GovernorState} {tracker : Tracker} {before : List Move} {now : ℚ}
    {today : Int} (h : Safe cfg ⟨.load file, tracker⟩ before now) (hday : utcDay now = .ok today) :
    overBudget cfg (heldFor today (playMoves cfg ⟨.load file, tracker⟩ before).governor.state) =
      overBudget cfg
        (heldFor today (play cfg ⟨.load file, tracker⟩ (events before)).governor.state) := by
  obtain ⟨earlier, current, rfl, hcount, hspend⟩ := h today hday
  obtain ⟨exact, hexact, hcounters⟩ : ∃ exact : Prop,
      (Micro (heldFor today (play cfg ⟨.load file, tracker⟩ (events earlier)).governor.state) → exact) ∧
        Counters today 0 exact (play cfg ⟨.load file, tracker⟩ (events earlier))
          (playMoves cfg ⟨.load file, tracker⟩ earlier) := by
    rcases hcount with rfl | hother
    · exact ⟨_, id, .start today file tracker⟩
    · exact ⟨True, fun _ => trivial, ((Counters.start today file tracker).moves cfg earlier).other hother⟩
  have hrun := hcounters.moves cfg current
  rw [← play_append, ← events_append, ← playMoves_append, Nat.zero_add] at hrun
  rcases hspend with hmicro | hclear
  · rw [(hrun.same ⟨hexact hmicro.1, hmicro.2⟩).1]
  · exact hclear.over hrun.near

theorem twin_run (file : Option GovernorState) (tracker : Tracker) (moves : List Move)
    (hsafe : ∀ before now after, moves = before ++ .event (.decide now) :: after →
      Safe cfg ⟨.load file, tracker⟩ before now) :
    Twin (play cfg ⟨.load file, tracker⟩ (events moves))
        (playMoves cfg ⟨.load file, tracker⟩ moves) ∧
      outcomes (traceMoves cfg ⟨.load file, tracker⟩ moves) =
        outcomes (trace cfg ⟨.load file, tracker⟩ (events moves)) := by
  induction moves using List.reverseRecOn with
  | nil => exact ⟨⟨rfl, rfl, rfl⟩, rfl⟩
  | append_singleton moves m ih =>
    obtain ⟨htwin, houtcomes⟩ := ih fun before now after heq =>
      hsafe before now (after ++ [m]) (by rw [heq, List.append_assoc, List.cons_append])
    rw [playMoves_snoc, traceMoves_snoc]
    cases m with
    | restart =>
      rw [events_restart, recordMove, List.append_nil]
      exact ⟨htwin.restart ((Counters.start 0 file tracker).moves cfg moves).saved, houtcomes⟩
    | event e =>
      rw [events_snoc, play_snoc, trace_snoc, stepMove, recordMove]
      cases e with
      | usage tracker' => exact ⟨{ htwin with tracker := rfl }, by simpa [record] using houtcomes⟩
      | spend usd now => exact ⟨htwin.spend usd now, by simpa [record] using houtcomes⟩
      | decide now =>
        obtain ⟨htwin', hlast⟩ :=
          htwin.decide now fun today hday => (hsafe moves now [] rfl).agrees hday
        refine ⟨htwin', ?_⟩
        unfold outcomes at houtcomes hlast ⊢
        rw [List.map_append, List.map_append, houtcomes, hlast]

/-- **Replacements are invisible up to the rounding of the file.** The modes and lanes are those
of one governor, as long as at each decision all amounts of its day were whole millionths or the
budget is clear of the day's spend by more than the day's replacements can have rounded. -/
theorem replaced_governor_agrees (cfg : GovernorConfig) (file : Option GovernorState)
    (tracker : Tracker) (moves : List Move)
    (hsafe : ∀ before now after, moves = before ++ .event (.decide now) :: after →
      Safe cfg ⟨.load file, tracker⟩ before now) :
    outcomes (traceMoves cfg ⟨.load file, tracker⟩ moves) =
      outcomes (trace cfg ⟨.load file, tracker⟩ (events moves)) :=
  (twin_run file tracker moves hsafe).2

/-- Less than a millionth on one day, then a day whose spend comes in two parts, with a new governor
before each. -/
def restartedDay : List Move :=
  [.event (.spend (.finite (1 / 10 ^ 7)) 1000), .restart, .event (.spend (.finite 20) 90000), .restart,
    .event (.decide 90000), .event (.spend (.finite 6) 91000), .restart, .event (.decide 92000)]

def noCaps : Tracker := Tracker.fresh (fun _ => none) DEFAULT_WINDOW_S

theorem restartedDay_agrees :
    outcomes (traceMoves .default ⟨.load none, noCaps⟩ restartedDay) =
      [(90000, .cheapPlans, .claudeCodeMax), (92000, .throttled, .claudeCodeMax)] := by
  -- The counter was still of the first day when the second began.
  have hsafe : ∀ (current : List Move) (spends : List ℤ) (now : ℚ), utcDay now = .ok 1 →
      (events current).filterMap (Event.spentOn 1) = spends.map (fun n => .finite n) →
        Safe .default ⟨.load none, noCaps⟩ (restartedDay.take 2 ++ current) now := by
    intro current spends now hnow hspends today htoday
    obtain rfl := Except.ok.inj (hnow.symm.trans htoday)
    refine ⟨restartedDay.take 2, current, rfl, .inr (by decide +kernel), .inl ⟨?_, ?_⟩⟩
    · rw [heldFor, if_neg (by decide +kernel)]
      exact micro_zero
    · rw [hspends]
      intro usd hmem
      obtain ⟨n, -, rfl⟩ := List.mem_map.mp hmem
      exact ⟨n * 10 ^ 6, by push_cast; rfl⟩
  rw [replaced_governor_agrees .default none noCaps restartedDay fun before now after heq => ?_]
  · decide +kernel
  rcases before with _ | ⟨_, _ | ⟨_, _ | ⟨_, _ | ⟨_, _ | ⟨_, _ | ⟨_, _ | ⟨_, _ | ⟨_, before⟩⟩⟩⟩⟩⟩⟩⟩ <;>
    simp only [restartedDay, List.cons_append, List.nil_append, List.cons.injEq, List.nil_eq,
      List.append_eq_nil_iff, Move.event.injEq, Event.decide.injEq, reduceCtorEq, and_false, false_and] at heq
  · obtain ⟨rfl, rfl, rfl, rfl, rfl, -⟩ := heq
    exact hsafe [.event (.spend (.finite 20) 90000), .restart] [20] 90000 (by decide +kernel) (by decide +kernel)
  · obtain ⟨rfl, rfl, rfl, rfl, rfl, rfl, rfl, rfl, -⟩ := heq
    exact hsafe [.event (.spend (.finite 20) 90000), .restart, .event (.decide 90000),
      .event (.spend (.finite 6) 91000), .restart] [20, 6] 92000 (by decide +kernel) (by decide +kernel)

/-- Under the budget by less than half a millionth, which the file rounds away. -/
def roundedUp : List Move :=
  [.event (.spend (.finite (25 - 4 / 10 ^ 7)) 1000), .restart, .event (.decide 1000)]

theorem roundedUp_differs :
    outcomes (traceMoves .default ⟨.load none, noCaps⟩ roundedUp) =
      [(1000, .throttled, .claudeCodeMax)] ∧
      outcomes (trace .default ⟨.load none, noCaps⟩ (events roundedUp)) =
        [(1000, .cheapPlans, .claudeCodeMax)] := by
  constructor <;> decide +kernel

end Swarm.RateMode
