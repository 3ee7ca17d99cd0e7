import Mathlib.Data.List.Count
import Swarm.Resilience

/-!
# The trace of a resilient call

The loop of `resilient_call` with a list of what it does: abort tests, calls, rotations and sleeps.
Without the list it is the loop of the model.
-/

namespace Swarm.Resilience

/-! ## Events -/

inductive Event (γ α : Type)
  /-- An abort test and its answer. -/
  | checked (abort : Bool)
  /-- A call of `fn` with the state before it, and what comes of it. -/
  | called (before : γ) (result : Except Exn α)
  | rotated
  | slept (seconds : ℚ)

def Event.map {γ δ α : Type} (f : γ → δ) : Event γ α → Event δ α
  | .checked abort => .checked abort
  | .called before result => .called (f before) result
  | .rotated => .rotated
  | .slept seconds => .slept seconds

def Event.isCall {γ α : Type} : Event γ α → Bool
  | .called .. => true
  | .checked _ | .rotated | .slept _ => false

section

variable {σ α : Type} (w : World σ α) (opts : Options)

def turned (c : Call σ) : List (Event (Call σ) α) :=
  if c.rotator.isSome && opts.rotateAfter ≤ (c.consecutiveTransient : Int) then [.rotated] else []

/-- `pause`, with its events. -/
def pauseTraced (attempt : Nat) (t : TransientError) (c : Call σ) :
    List (Event (Call σ) α) × Except Exn Unit × Call σ :=
  let events := turned opts c
  let c := rotate w opts c
  match opts.backoff.delay (w.uniform c.world) attempt t.retryAfterS with
  | .error e => (events, .error (.program e), c)
  | .ok wait =>
    let (abort, s) := w.shouldAbort c.world
    let c := { c with world := s }
    if abort then (events ++ [.checked true], .error (.transient (abortError c.lastErr)), c)
    else
      let c := { c with stats := { c.stats with totalSleepS := c.stats.totalSleepS + wait } }
      let events := events ++ .checked false :: if 0 < wait then [.slept wait] else []
      match if 0 < wait then w.sleep wait s else .ok () with
      | .error e => (events, .error (.program e), c)
      | .ok () => (events, .ok (), c)

/-- `attempts`, with its events. -/
def attemptsTraced : Nat → Nat → Call σ → List (Event (Call σ) α) × Except Exn α × Call σ
  | 0, attempt, c => ([], attempts w opts 0 attempt c)
  | left + 1, attempt, c =>
    let (abort, s) := w.shouldAbort c.world
    let c := { c with world := s }
    if abort then ([.checked true], .error (.transient (abortError c.lastErr)), c)
    else
      let (result, s) := w.fn c.apiKey s
      let events := [.checked false, .called c result]
      let c := { c with world := s, stats := { c.stats with attempts := attempt + 1 } }
      match result with
      | .ok v => (events, .ok v, { c with stats := { c.stats with succeeded := true } })
      | .error e =>
        match classifyExn e with
        | none => (events, .error e, c)
        | some t =>
          let c := c.failed t
          if left = 0 then (events, attempts w opts 0 (attempt + 1) c)
          else
            match pauseTraced w opts attempt t c with
            | (gap, .error e, c) => (events ++ gap, .error e, c)
            | (gap, .ok (), c) =>
              let rest := attemptsTraced left (attempt + 1) c
              (events ++ gap ++ rest.1, rest.2)

def traced (s : σ) (rotator : Option KeyRotator) (apiKey : Option String) :
    List (Event (Call σ) α) × Except Exn α × Call σ :=
  if opts.maxAttempts < 1 then
    ([], .error (.program (.valueError "max_attempts must be >= 1")), .init s rotator apiKey)
  else attemptsTraced w opts opts.maxAttempts.toNat 0 (enter w s rotator apiKey)

theorem attemptsTraced_opening {c : Call σ} {s : σ} (hcheck : w.shouldAbort c.world = (false, s))
    (left attempt : Nat) :
    ∃ post, (attemptsTraced w opts (left + 1) attempt c).1 =
      .checked false :: .called { c with world := s } (w.fn c.apiKey s).1 :: post := by
  simp only [attemptsTraced, hcheck, Bool.false_eq_true, if_false]
  split
  · exact ⟨_, rfl⟩
  · split
    · exact ⟨_, rfl⟩
    · split
      · exact ⟨_, rfl⟩
      · split <;> exact ⟨_, rfl⟩

/-! ## The list changes nothing -/

theorem pauseTraced_snd (attempt : Nat) (t : TransientError) (c : Call σ) :
    (pauseTraced w opts attempt t c).2 = pause w opts attempt t c := by
  unfold pauseTraced pause
  dsimp only
  cases opts.backoff.delay (w.uniform (rotate w opts c).world) attempt t.retryAfterS with
  | error e => rfl
  | ok wait =>
    dsimp only
    split
    · rfl
    · cases if 0 < wait then w.sleep wait (w.shouldAbort (rotate w opts c).world).2 else .ok () <;> rfl

theorem attemptsTraced_snd (left attempt : Nat) (c : Call σ) :
    (attemptsTraced w opts left attempt c).2 = attempts w opts left attempt c := by
  induction left generalizing attempt c with
  | zero => rfl
  | succ left ih =>
    rcases hcheck : w.shouldAbort c.world with ⟨abort, s⟩
    rcases hfn : w.fn c.apiKey s with ⟨result, s'⟩
    simp only [attemptsTraced, attempts, hcheck, hfn]
    cases abort with
    | true => rfl
    | false =>
      cases result with
      | ok v => rfl
      | error e =>
        cases htransient : classifyExn e with
        | none => simp only [Bool.false_eq_true, if_false, htransient]
        | some t =>
          simp only [Bool.false_eq_true, if_false, htransient]
          split
          · rfl
          · rw [← pauseTraced_snd]
            rcases pauseTraced w opts attempt t _ with ⟨gap, ⟨x⟩ | ⟨⟩, c'⟩
            · rfl
            · exact ih (attempt + 1) c'

theorem traced_snd (s : σ) (rotator : Option KeyRotator) (apiKey : Option String) :
    (traced w opts s rotator apiKey).2 = resilientCall w opts s rotator apiKey := by
  unfold traced resilientCall
  split
  · rfl
  · exact attemptsTraced_snd w opts _ _ _

end

/-! ## An abort test that answers true -/

/-- It is the last event, and an error with the reason `aborted` is raised. -/
def Stops {γ α β : Type} (events : List (Event γ α)) (result : Except Exn β) : Prop :=
  ∀ pre post, events = pre ++ .checked true :: post →
    post = [] ∧ ∃ t, result = .error (.transient t) ∧ t.reason = some "aborted"

section

variable {γ α β : Type}

theorem Stops.of_not_mem {events : List (Event γ α)} {result : Except Exn β}
    (h : .checked true ∉ events) : Stops events result := by
  rintro pre post rfl
  simp at h

theorem Stops.append {xs ys : List (Event γ α)} {result : Except Exn β} (hxs : .checked true ∉ xs)
    (hys : Stops ys result) : Stops (xs ++ ys) result := by
  intro pre post hsplit
  rcases List.append_eq_append_iff.mp hsplit with ⟨m, -, hm⟩ | ⟨m, rfl, hm⟩
  · exact hys m post hm
  · cases m with
    | nil => exact hys [] post hm.symm
    | cons e m =>
      obtain ⟨rfl, -⟩ := List.cons.inj hm
      simp at hxs

theorem Stops.reraised {δ : Type} {events : List (Event γ α)} {e : Exn}
    (h : Stops events (.error e : Except Exn β)) : Stops events (.error e : Except Exn δ) := by
  intro pre post hsplit
  obtain ⟨hpost, t, he, hreason⟩ := h pre post hsplit
  exact ⟨hpost, t, congrArg _ (Except.error.inj he), hreason⟩

theorem stops_abort (last : Option TransientError) :
    Stops ([.checked true] : List (Event γ α)) (.error (.transient (abortError last)) : Except Exn β) := by
  intro pre post hsplit
  have hpost : post = [] := by
    cases pre with
    | nil => simpa using hsplit.symm
    | cons e pre => simp at hsplit
  exact ⟨hpost, _, rfl, rfl⟩

variable {σ : Type} (w : World σ α) (opts : Options)

theorem not_mem_turned (c : Call σ) (abort : Bool) :
    .checked abort ∉ (turned opts c : List (Event (Call σ) α)) := by
  unfold turned
  split <;> simp

theorem pauseTraced_stops (attempt : Nat) (t : TransientError) (c : Call σ) :
    Stops (pauseTraced w opts attempt t c).1 (pauseTraced w opts attempt t c).2.1 ∧
      ((pauseTraced w opts attempt t c).2.1 = .ok () →
        .checked true ∉ (pauseTraced w opts attempt t c).1) := by
  have hturned : (.checked true : Event (Call σ) α) ∉ turned opts c := not_mem_turned opts c true
  rcases hcheck : w.shouldAbort (rotate w opts c).world with ⟨abort, s⟩
  cases hdelay : opts.backoff.delay (w.uniform (rotate w opts c).world) attempt t.retryAfterS with
  | error e =>
    simp only [pauseTraced, hdelay]
    exact ⟨.of_not_mem hturned, by simp⟩
  | ok wait =>
    simp only [pauseTraced, hdelay, hcheck]
    cases abort with
    | true => exact ⟨.append hturned (stops_abort _), by simp⟩
    | false =>
      have hquiet : .checked true ∉ turned opts c ++
          (.checked false :: if 0 < wait then [.slept wait] else [] : List (Event (Call σ) α)) := by
        simp only [List.mem_append, List.mem_cons, not_or]
        exact ⟨hturned, by simp, by split <;> simp⟩
      cases if 0 < wait then w.sleep wait s else .ok () <;> exact ⟨.of_not_mem hquiet, fun _ => hquiet⟩

theorem attemptsTraced_stops (left attempt : Nat) (c : Call σ) :
    Stops (attemptsTraced w opts left attempt c).1 (attemptsTraced w opts left attempt c).2.1 := by
  induction left generalizing attempt c with
  | zero => exact .of_not_mem (by simp [attemptsTraced])
  | succ left ih =>
    rcases hcheck : w.shouldAbort c.world with ⟨abort, s⟩
    rcases hfn : w.fn c.apiKey s with ⟨result, s'⟩
    have hopening : ∀ c' : Call σ,
        .checked true ∉ ([.checked false, .called c' result] : List (Event (Call σ) α)) := by simp
    simp only [attemptsTraced, hcheck, hfn]
    cases abort with
    | true => exact stops_abort _
    | false =>
      cases result with
      | ok v => exact .of_not_mem (hopening _)
      | error e =>
        cases htransient : classifyExn e with
        | none =>
          simpa only [Bool.false_eq_true, if_false, htransient] using .of_not_mem (hopening _)
        | some t =>
          simp only [Bool.false_eq_true, if_false, htransient]
          split
          · exact .of_not_mem (hopening _)
          · obtain ⟨hstops, hquiet⟩ := pauseTraced_stops w opts attempt t
              (Call.failed { c with world := s', stats := { c.stats with attempts := attempt + 1 } } t)
            rcases hpause : pauseTraced w opts attempt t _ with ⟨gap, ⟨x⟩ | ⟨⟩, c'⟩
            · rw [hpause] at hstops
              exact .append (hopening _) hstops.reraised
            · rw [hpause] at hquiet
              have hgap := hquiet rfl
              refine .append ?_ (ih (attempt + 1) c')
              simp only [List.mem_append, not_or]
              exact ⟨hopening _, hgap⟩

theorem traced_stops (s : σ) (rotator : Option KeyRotator) (apiKey : Option String) :
    Stops (traced w opts s rotator apiKey).1 (resilientCall w opts s rotator apiKey).1 := by
  rw [← traced_snd]
  unfold traced
  split
  · exact .of_not_mem (by simp)
  · exact attemptsTraced_stops w opts _ _ _

end

/-! ## What is raised in a call -/

/-- What comes of a call is what `fn` gives in that state. An exception that is not transient leaves
with it, and nothing comes after. -/
def Leaves {σ α : Type} (w : World σ α) (events : List (Event (Call σ) α))
    (out : Except Exn α × Call σ) :
    Prop :=
  ∀ pre before result post, events = pre ++ .called before result :: post →
    result = (w.fn before.apiKey before.world).1 ∧
      ∀ e, result = .error e → classifyExn e = none →
        post = [] ∧ out.1 = .error e ∧ out.2.world = (w.fn before.apiKey before.world).2

section

variable {σ α : Type} (w : World σ α) (opts : Options)

theorem Leaves.append {xs ys : List (Event (Call σ) α)} {out : Except Exn α × Call σ}
    (hxs : ∀ before result, .called before result ∉ xs) (hys : Leaves w ys out) :
    Leaves w (xs ++ ys) out := by
  intro pre before result post hsplit
  rcases List.append_eq_append_iff.mp hsplit with ⟨m, -, hm⟩ | ⟨m, rfl, hm⟩
  · exact hys m before result post hm
  · cases m with
    | nil => exact hys [] before result post hm.symm
    | cons e m =>
      obtain ⟨rfl, -⟩ := List.cons.inj hm
      exact absurd (by simp) (hxs before result)

theorem Leaves.of_no_call {events : List (Event (Call σ) α)} {out : Except Exn α × Call σ}
    (h : ∀ before result, .called before result ∉ events) : Leaves w events out := by
  rintro pre before result post rfl
  exact absurd (by simp) (h before result)

theorem Leaves.cons {before : Call σ} {result : Except Exn α} {rest : List (Event (Call σ) α)}
    {out : Except Exn α × Call σ} (hresult : result = (w.fn before.apiKey before.world).1)
    (hleaves : ∀ e, result = .error e → classifyExn e = none →
      rest = [] ∧ out.1 = .error e ∧ out.2.world = (w.fn before.apiKey before.world).2)
    (hrest : Leaves w rest out) : Leaves w (.called before result :: rest) out := by
  intro pre before' result' post hsplit
  cases pre with
  | nil =>
    obtain ⟨hcall, rfl⟩ := List.cons.inj hsplit
    obtain ⟨rfl, rfl⟩ := Event.called.inj hcall
    exact ⟨hresult, hleaves⟩
  | cons e pre => exact hrest pre before' result' post (List.cons.inj hsplit).2

theorem pauseTraced_no_call (attempt : Nat) (t : TransientError) (c before : Call σ)
    (result : Except Exn α) : .called before result ∉ (pauseTraced w opts attempt t c).1 := by
  have hturned : .called before result ∉ (turned opts c : List (Event (Call σ) α)) := by
    unfold turned
    split <;> simp
  rcases hcheck : w.shouldAbort (rotate w opts c).world with ⟨abort, s⟩
  cases hdelay : opts.backoff.delay (w.uniform (rotate w opts c).world) attempt t.retryAfterS with
  | error e =>
    simp only [pauseTraced, hdelay]
    exact hturned
  | ok wait =>
    simp only [pauseTraced, hdelay, hcheck]
    cases abort with
    | true => simp [hturned]
    | false =>
      have hslept : .called before result ∉ turned opts c ++
          (.checked false :: if 0 < wait then [.slept wait] else [] : List (Event (Call σ) α)) := by
        simp only [List.mem_append, List.mem_cons, not_or]
        exact ⟨hturned, by simp, by split <;> simp⟩
      cases if 0 < wait then w.sleep wait s else .ok () <;> exact hslept

theorem attemptsTraced_leaves (left attempt : Nat) (c : Call σ) :
    Leaves w (attemptsTraced w opts left attempt c).1 (attemptsTraced w opts left attempt c).2 := by
  induction left generalizing attempt c with
  | zero => exact .of_no_call w (by simp [attemptsTraced])
  | succ left ih =>
    rcases hcheck : w.shouldAbort c.world with ⟨abort, s⟩
    rcases hfn : w.fn c.apiKey s with ⟨result, s'⟩
    have hchecked : ∀ abort before (r : Except Exn α),
        Event.called before r ∉ ([.checked abort] : List (Event (Call σ) α)) := by simp
    simp only [attemptsTraced, hcheck, hfn]
    cases abort with
    | true => exact .of_no_call w (hchecked true)
    | false =>
      have hresult : result = (w.fn c.apiKey s).1 := by rw [hfn]
      cases result with
      | ok v => exact .append w (hchecked false) (.cons w hresult (by simp) (.of_no_call w (by simp)))
      | error e =>
        cases htransient : classifyExn e with
        | none =>
          simp only [Bool.false_eq_true, if_false, htransient]
          refine .append w (hchecked false) (.cons w hresult ?_ (.of_no_call w (by simp)))
          intro e' he _
          exact ⟨rfl, he, by rw [hfn]⟩
        | some t =>
          -- A transient failure is no exception that leaves at once.
          have hnot : ∀ e', (.error e : Except Exn α) = .error e' → classifyExn e' ≠ none := by
            intro e' he
            simp [← Except.error.inj he, htransient]
          simp only [Bool.false_eq_true, if_false, htransient]
          split
          · exact .append w (hchecked false)
              (.cons w hresult (fun e' he h => absurd h (hnot e' he)) (.of_no_call w (by simp)))
          · have hgap := pauseTraced_no_call w opts attempt t
              (Call.failed { c with world := s', stats := { c.stats with attempts := attempt + 1 } } t)
            rcases hpause : pauseTraced w opts attempt t _ with ⟨gap, ⟨x⟩ | ⟨⟩, c'⟩
            · rw [hpause] at hgap
              simp only [List.cons_append, List.nil_append]
              exact .append w (hchecked false)
                (.cons w hresult (fun e' he h => absurd h (hnot e' he)) (.of_no_call w hgap))
            · rw [hpause] at hgap
              simp only [List.cons_append, List.nil_append]
              -- The rest of the trace is that of the next attempt.
              refine .append w (hchecked false)
                (.cons w hresult (fun e' he h => absurd h (hnot e' he)) ?_)
              exact .append w hgap (ih (attempt + 1) c')

theorem traced_leaves (s : σ) (rotator : Option KeyRotator) (apiKey : Option String) :
    Leaves w (traced w opts s rotator apiKey).1 (resilientCall w opts s rotator apiKey) := by
  rw [← traced_snd]
  unfold traced
  split
  · exact .of_no_call w (by simp)
  · exact attemptsTraced_leaves w opts _ _ _

theorem pause_not_raised (attempt : Nat) (t : TransientError) (c : Call σ) (e : Raised) :
    (pause w opts attempt t c).1 ≠ .error (.raised e) := by
  unfold pause
  dsimp only
  split
  · simp
  · split
    · simp
    · split <;> simp

theorem attempts_raised {left attempt : Nat} {c : Call σ} {e : Raised}
    (h : (attempts w opts left attempt c).1 = .error (.raised e)) : classifyError e = none := by
  induction left generalizing attempt c with
  | zero =>
    unfold attempts at h
    split at h <;> simp at h
  | succ left ih =>
    rcases hcheck : w.shouldAbort c.world with ⟨abort, s⟩
    rcases hfn : w.fn c.apiKey s with ⟨result, s'⟩
    simp only [attempts, hcheck, hfn] at h
    cases abort with
    | true => simp at h
    | false =>
      cases result with
      | ok v => simp at h
      | error x =>
        cases htransient : classifyExn x with
        | none =>
          simp only [Bool.false_eq_true, if_false, htransient, Except.error.injEq] at h
          rw [h] at htransient
          exact htransient
        | some t =>
          simp only [Bool.false_eq_true, if_false, htransient] at h
          split at h
          · simp [Call.failed] at h
          · have hnot := pause_not_raised w opts attempt t
              (Call.failed { c with world := s', stats := { c.stats with attempts := attempt + 1 } } t) e
            rcases hpause : pause w opts attempt t _ with ⟨⟨x⟩ | ⟨⟩, c'⟩
            · rw [hpause] at h hnot
              exact absurd h (by simpa using hnot)
            · rw [hpause] at h
              exact ih h

theorem resilientCall_raised {s : σ} {rotator : Option KeyRotator} {apiKey : Option String}
    {e : Raised} (h : (resilientCall w opts s rotator apiKey).1 = .error (.raised e)) :
    classifyError e = none := by
  unfold resilientCall at h
  split at h
  · simp at h
  · exact attempts_raised w opts h

end

end Swarm.Resilience
