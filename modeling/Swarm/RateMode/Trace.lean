import Swarm.RateMode.Code

/-! # What a process sees of its governor -/

namespace Swarm.RateMode

open Usage

/-- A call in the process: an update of the tracker leaves it in any state. -/
inductive Event
  | usage (tracker : Tracker)
  | spend (usd : Num) (now : ℚ)
  | decide (now : ℚ)

structure Process where
  governor : Governor
  tracker : Tracker

/-- A decision that was returned, when, and the lanes it read. -/
structure Record where
  now : ℚ
  tracker : Tracker
  decision : Decision

variable (cfg : GovernorConfig)

def step (p : Process) : Event → Process
  | .usage tracker => { p with tracker := tracker }
  | .spend usd now => { p with governor := (p.governor.recordApiSpend usd now).2 }
  | .decide now => { p with governor := (p.governor.decide cfg p.tracker now).2 }

def play (p : Process) (es : List Event) : Process := es.foldl (step cfg) p

/-- A call that raises returns no decision. -/
def record (p : Process) : Event → List Record
  | .decide now =>
    match (p.governor.decide cfg p.tracker now).1 with
    | .ok d => [⟨now, p.tracker, d⟩]
    | .error _ => []
  | _ => []

def trace (p : Process) : List Event → List Record
  | [] => []
  | e :: es => record cfg p e ++ trace (step cfg p e) es

theorem play_cons (p : Process) (e : Event) (es : List Event) :
    play cfg p (e :: es) = play cfg (step cfg p e) es := rfl

theorem play_snoc (p : Process) (es : List Event) (e : Event) :
    play cfg p (es ++ [e]) = step cfg (play cfg p es) e := by simp [play]

theorem play_append (p : Process) (es es' : List Event) :
    play cfg p (es ++ es') = play cfg (play cfg p es) es' := List.foldl_append

theorem trace_append (p : Process) (es es' : List Event) :
    trace cfg p (es ++ es') = trace cfg p es ++ trace cfg (play cfg p es) es' := by
  induction es generalizing p with
  | nil => rfl
  | cons e es ih => simp only [List.cons_append, trace, ih, play_cons, List.append_assoc]

theorem trace_snoc (p : Process) (es : List Event) (e : Event) :
    trace cfg p (es ++ [e]) = trace cfg p es ++ record cfg (play cfg p es) e := by
  simp [trace_append, trace]

/-! ## Read off the decisions -/

def modeAfter (stored : Mode) (rs : List Record) : Mode :=
  (rs.getLast?.map (·.decision.mode)).getD stored

/-- Where the dwell starts: the last mode change, else what was stored, else the first decision. -/
def dwellStart (stored : Option Num) (rs : List Record) : Option Num :=
  match (rs.filter (·.decision.changed)).getLast? with
  | some r => some (.finite r.now)
  | none => stored <|> rs.head?.map (.finite ·.now)

@[simp] theorem modeAfter_snoc (stored : Mode) (rs : List Record) (r : Record) :
    modeAfter stored (rs ++ [r]) = r.decision.mode := by simp [modeAfter]

theorem dwellStart_snoc (stored : Option Num) (rs : List Record) (r : Record) :
    dwellStart stored (rs ++ [r]) =
      if r.decision.changed then some (.finite r.now)
      else some ((dwellStart stored rs).getD (.finite r.now)) := by
  cases hc : r.decision.changed with
  | true => simp [dwellStart, hc]
  | false =>
    have hf : (rs ++ [r]).filter (·.decision.changed) = rs.filter (·.decision.changed) := by
      simp [List.filter_append, hc]
    simp only [dwellStart, hf]
    cases (rs.filter (·.decision.changed)).getLast? with
    | some _ => rfl
    | none => cases stored <;> cases rs <;> rfl

/-! ## One decision -/

theorem rollDay_keeps (g : Governor) (today : Int) :
    (g.rollDay today).state.mode = g.state.mode ∧
      (g.rollDay today).state.modeSince = g.state.modeSince := by
  unfold Governor.rollDay
  split <;> exact ⟨rfl, rfl⟩

theorem stamp_keeps (g : Governor) (now : ℚ) :
    (g.stamp now).state.mode = g.state.mode ∧
      (g.stamp now).state.apiSpendUsd = g.state.apiSpendUsd ∧
      (g.stamp now).state.apiSpendDay = g.state.apiSpendDay ∧
      (g.stamp now).state.modeSince = some (g.state.modeSince.getD (.finite now)) := by
  unfold Governor.stamp
  split
  · next h => simp [h]
  · next h => simp [h, Governor.save]

theorem transition_keeps (g : Governor) (m : Mode) (now : ℚ) :
    (g.transition m now).state.mode = m ∧
      (g.transition m now).state.apiSpendUsd = g.state.apiSpendUsd ∧
      (g.transition m now).state.apiSpendDay = g.state.apiSpendDay ∧
      (g.transition m now).state.modeSince =
        if m = g.state.mode then g.state.modeSince else some (.finite now) := by
  unfold Governor.transition
  split
  · next h => simp [h]
  · exact ⟨rfl, rfl, rfl, rfl⟩

theorem decide_spec {cfg : GovernorConfig} {g : Governor} {tracker : Tracker} {now : ℚ}
    {d : Decision} (h : (g.decide cfg tracker now).1 = .ok d) :
    ∃ today, utcDay now = .ok today ∧
      let g' := (g.decide cfg tracker now).2
      let since := g.state.modeSince.getD (.finite now)
      let spend := (g.rollDay today).state.apiSpendUsd
      d.mode = (target cfg (snapshot tracker now) now since spend g.state.mode).1 ∧
        (d.changed = true ↔ d.mode ≠ g.state.mode) ∧
        d.apiSpendUsd = spend ∧
        g'.state.mode = d.mode ∧
        g'.state.modeSince = (if d.changed then some (.finite now) else some since) ∧
        g'.state.apiSpendUsd = spend ∧
        g'.state.apiSpendDay = (g.rollDay today).state.apiSpendDay := by
  unfold Governor.decide at h ⊢
  cases hday : utcDay now with
  | error e => simp [hday] at h
  | ok today =>
    simp only [hday, Except.ok.injEq] at h
    subst h
    refine ⟨today, rfl, ?_⟩
    obtain ⟨hm, hs⟩ := rollDay_keeps g today
    obtain ⟨hm', hu, hd, hs'⟩ := stamp_keeps (g.rollDay today) now
    simp only [transition_keeps, hm', hu, hd, hs', hm, hs, Option.getD_some, decide_eq_true_eq, ne_eq,
      and_true, ite_not]

theorem decide_raises {cfg : GovernorConfig} {g : Governor} {tracker : Tracker} {now : ℚ}
    {e : PyError} (h : (g.decide cfg tracker now).1 = .error e) :
    (g.decide cfg tracker now).2 = g := by
  unfold Governor.decide at h ⊢
  cases hday : utcDay now with
  | error _ => rfl
  | ok _ => simp [hday] at h

theorem recordApiSpend_keeps (g : Governor) (usd : Num) (now : ℚ) :
    (g.recordApiSpend usd now).2.state.mode = g.state.mode ∧
      (g.recordApiSpend usd now).2.state.modeSince = g.state.modeSince := by
  unfold Governor.recordApiSpend
  split
  · exact ⟨rfl, rfl⟩
  · split
    · exact ⟨rfl, rfl⟩
    · exact rollDay_keeps g _

/-! ## The state is what the decisions say -/

theorem step_keeps {p : Process} {e : Event} (h : record cfg p e = []) :
    (step cfg p e).governor.state.mode = p.governor.state.mode ∧
      (step cfg p e).governor.state.modeSince = p.governor.state.modeSince := by
  cases e with
  | usage tracker => exact ⟨rfl, rfl⟩
  | spend usd now => exact recordApiSpend_keeps p.governor usd now
  | decide now =>
    cases hd : (p.governor.decide cfg p.tracker now).1 with
    | ok d => simp [record, hd] at h
    | error e => simp [step, decide_raises hd]

theorem record_eq (p : Process) (e : Event) :
    record cfg p e = [] ∨ ∃ now d, e = .decide now ∧
      (p.governor.decide cfg p.tracker now).1 = .ok d ∧ record cfg p e = [⟨now, p.tracker, d⟩] := by
  cases e with
  | usage tracker => exact .inl rfl
  | spend usd now => exact .inl rfl
  | decide now =>
    cases hd : (p.governor.decide cfg p.tracker now).1 with
    | ok d => exact .inr ⟨now, d, rfl, hd, by simp [record, hd]⟩
    | error e => exact .inl (by simp [record, hd])

theorem play_state (p : Process) (es : List Event) :
    (play cfg p es).governor.state.mode = modeAfter p.governor.state.mode (trace cfg p es) ∧
      (play cfg p es).governor.state.modeSince =
        dwellStart p.governor.state.modeSince (trace cfg p es) := by
  induction es using List.reverseRecOn with
  | nil => simp [play, trace, modeAfter, dwellStart]
  | append_singleton es e ih =>
    rw [play_snoc, trace_snoc]
    rcases record_eq cfg (play cfg p es) e with hr | ⟨now, d, rfl, hd, hr⟩
    · rw [hr, List.append_nil, (step_keeps cfg hr).1, (step_keeps cfg hr).2]
      exact ih
    · rw [hr, modeAfter_snoc, dwellStart_snoc, ← ih.2]
      obtain ⟨_, -, -, -, -, hm, hs, -⟩ := decide_spec hd
      exact ⟨hm, by rw [step, hs]⟩

/-- Each decision of a run was taken by the governor that the decisions before it left. -/
theorem trace_split {p : Process} {es : List Event} {pre post : List Record} {r : Record}
    (h : trace cfg p es = pre ++ r :: post) :
    ∃ past, trace cfg p past = pre ∧ (play cfg p past).tracker = r.tracker ∧
      ((play cfg p past).governor.decide cfg r.tracker r.now).1 = .ok r.decision ∧
      ∃ later, es = past ++ .decide r.now :: later := by
  induction es generalizing p pre with
  | nil => simp [trace] at h
  | cons e es ih =>
    rw [trace] at h
    rcases record_eq cfg p e with hr | ⟨now, d, rfl, hd, hr⟩
    · rw [hr, List.nil_append] at h
      obtain ⟨past, hpast, ht, hdec, later, rfl⟩ := ih h
      exact ⟨e :: past, by rw [trace, hr, hpast, List.nil_append], ht, hdec, later, rfl⟩
    · rw [hr, List.singleton_append] at h
      cases pre with
      | nil =>
        obtain ⟨rfl, -⟩ := List.cons.inj h
        exact ⟨[], rfl, rfl, hd, es, rfl⟩
      | cons r' pre =>
        rw [List.cons_append] at h
        obtain ⟨rfl, htail⟩ := List.cons.inj h
        obtain ⟨past, hpast, ht, hdec, later, rfl⟩ := ih htail
        exact ⟨.decide now :: past, by rw [trace, hr, hpast, List.singleton_append], ht, hdec, later, rfl⟩

end Swarm.RateMode
