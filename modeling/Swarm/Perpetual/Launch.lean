import Swarm.Perpetual.Guard

/-!
# The launch of a team, as `run_perpetual_team` computes it

A process that is alive makes one call at a time, under the pidfile or without it. A step is one
step of the guard, one loop that is built, started or waited for, or the end of a loop.
-/

namespace Swarm.Perpetual.Launch

open Lib
open Pidfile (Pid)

/-! ## The call -/

/-- The arguments that matter. -/
structure Team where
  count : Int
  guarded : Bool
  join : Bool
  deriving DecidableEq

inductive Outcome
  /-- `count must be >= 1` -/
  | valueError
  /-- What `acquire` raises, such as `DuplicateTeamError`. -/
  | refused
  /-- A loop could not be built or started. -/
  | raised
  | detached
  | returned
  /-- After a `KeyboardInterrupt` and the joins with a timeout. -/
  | interrupted
  /-- Another exception in the wait. -/
  | broken
  deriving DecidableEq

/-- Where a call of `run_perpetual_team` stands. -/
inductive Phase
  | out
  | acquiring (t : Team)
  | building (t : Team) (i : Nat)
  | starting (t : Team) (i : Nat)
  | waiting (t : Team) (i : Nat)
  | stopping (t : Team)
  | releasing (t : Team) (outcome : Outcome)
  deriving DecidableEq

structure Proc where
  phase : Phase
  /-- How many calls it has begun. -/
  calls : Nat
  /-- The loops that run, each by its call and its number. -/
  running : List (Nat × Nat)

/-- A call that is over, and how it ended. -/
structure Ended where
  proc : Pid
  call : Nat
  team : Team
  outcome : Outcome

structure State where
  guard : Pidfile.State
  procs : Pid → Proc
  log : List Ended

inductive Act
  | call (t : Team)
  /-- The next step of `acquire` or `release`. -/
  | guard
  | build (ok : Bool)
  | start (ok : Bool)
  | wait
  | interrupt
  | joined
  | raises
  /-- A loop ends by itself. -/
  | ends (call i : Nat)
  | born
  | exit

structure Label where
  proc : Pid
  act : Act

def State.set (p : Pid) (proc : Proc) (s : State) : State :=
  { s with procs := Function.update s.procs p proc }

def State.goto (p : Pid) (phase : Phase) (s : State) : State :=
  s.set p { s.procs p with phase := phase }

/-- The next call begins. -/
def State.enter (p : Pid) (phase : Phase) (s : State) : State :=
  s.set p { s.procs p with phase := phase, calls := (s.procs p).calls + 1 }

/-- The thread of loop `i` runs. -/
def State.run (p : Pid) (i : Nat) (s : State) : State :=
  s.set p { s.procs p with running := ((s.procs p).calls, i) :: (s.procs p).running }

def State.finish (p : Pid) (t : Team) (outcome : Outcome) (s : State) : State :=
  { s.goto p .out with log := s.log ++ [⟨p, (s.procs p).calls, t, outcome⟩] }

/-- `guard.release()`, and what follows when it is done. -/
def leave (p : Pid) (t : Team) (outcome : Outcome) (s : State) : Option State :=
  if t.guarded then
    (Pidfile.step (.release p) s.guard).map fun g =>
      if (g.procs p).pc = .idle then { s with guard := g }.finish p t outcome
      else { s with guard := g }.goto p (.releasing t outcome)
  else some (s.finish p t outcome)

/-- What a step makes of the process. One that it cannot make where it stands gives `none`. -/
def act (p : Pid) (a : Act) (s : State) : Option State :=
  match (s.procs p).phase, a with
  | .out, .call t =>
    if t.count < 1 then some ((s.enter p .out).finish p t .valueError)
    else if t.guarded then
      (Pidfile.step (.acquire p) s.guard).map fun g => { s with guard := g }.enter p (.acquiring t)
    else some (s.enter p (.building t 0))
  | .acquiring t, .guard =>
    (Pidfile.step (.go p) s.guard).map fun g =>
      if (g.procs p).pc ≠ .idle then { s with guard := g }
      else if (g.procs p).holds then { s with guard := g }.goto p (.building t 0)
      else { s with guard := g }.finish p t .refused
  | .releasing t outcome, .guard =>
    (Pidfile.step (.go p) s.guard).map fun g =>
      if (g.procs p).pc ≠ .idle then { s with guard := g } else { s with guard := g }.finish p t outcome
  | .building t i, .build ok =>
    if ok then some (s.goto p (if (i + 1 : Int) < t.count then .building t (i + 1) else .starting t 0))
    else leave p t .raised s
  | .starting t i, .start ok =>
    if ok then
      if (i + 1 : Int) < t.count then some ((s.run p i).goto p (.starting t (i + 1)))
      else if t.join then some ((s.run p i).goto p (.waiting t 0))
      else leave p t .detached (s.run p i)
    else leave p t .raised s
  | .waiting t i, .wait =>
    -- `t.join(timeout=1.0)`, again and again while the loop runs.
    if ((s.procs p).calls, i) ∈ (s.procs p).running then some s
    else if (i + 1 : Int) < t.count then some (s.goto p (.waiting t (i + 1)))
    else leave p t .returned s
  | .waiting t _, .interrupt => some (s.goto p (.stopping t))
  | .stopping t, .joined => leave p t .interrupted s
  | .waiting t _, .raises | .stopping t, .raises => leave p t .broken s
  | _, _ => none

def step (l : Label) (s : State) : Option State :=
  match l.act with
  | .born => (Pidfile.step (.start l.proc) s.guard).map fun g => { s with guard := g }
  | .exit =>
    (Pidfile.step (.exit l.proc) s.guard).map fun g =>
      { s with guard := g }.set l.proc { s.procs l.proc with phase := .out, running := [] }
  | .ends call i =>
    if (call, i) ∈ (s.procs l.proc).running then
      some (s.set l.proc { s.procs l.proc with running := (s.procs l.proc).running.erase (call, i) })
    else none
  | a => if s.guard.alive l.proc then act l.proc a s else none

/-! ## What is promised of the loops -/

/-- A call that ends so may leave loops that run. -/
def Outcome.leaves : Outcome → Bool
  | .raised | .detached | .interrupted | .broken => true
  | .valueError | .refused | .returned => false

/-- Loop `i` of the call may run. -/
def Phase.Live : Phase → Nat → Prop
  | .starting t j, i => i < j ∧ (i : Int) < t.count
  | .waiting t j, i => j ≤ i ∧ (i : Int) < t.count
  | .stopping t, i => (i : Int) < t.count
  | .releasing t outcome, i => outcome.leaves = true ∧ (i : Int) < t.count
  | _, _ => False

/-- The loops of a process are those of the call that it is in, and those that a call left. -/
structure Loops (phase : Phase) (calls : Nat) (running : List (Nat × Nat))
    (ended : List Ended) : Prop where
  owned : ∀ c i, (c, i) ∈ running → c = calls ∧ phase.Live i ∨
    ∃ e ∈ ended, e.call = c ∧ e.outcome.leaves = true ∧ (i : Int) < e.team.count
  past : ∀ e ∈ ended, e.call ≤ calls ∧ (phase ≠ .out → e.call ≠ calls)
  gone : ∀ e ∈ ended, e.outcome.leaves = false → ∀ i, (e.call, i) ∉ running

/-- Between the return of `acquire` and the return of `release`. -/
def Phase.Guarded : Phase → Prop
  | .building t _ | .starting t _ | .waiting t _ | .stopping t | .releasing t _ => t.guarded = true
  | .out | .acquiring _ => False

def acquires : Pidfile.Pc → Bool
  | .reading | .checking _ | .opening | .putting _ => true
  | .idle | .rereading | .unlinking => false

def releases : Pidfile.Pc → Bool
  | .rereading | .unlinking => true
  | .idle | .reading | .checking _ | .opening | .putting _ => false

def Phase.Agrees : Phase → Pidfile.Proc → Prop
  | .out, g => g = ⟨.idle, false⟩
  | .acquiring t, g => 0 < t.count ∧ t.guarded = true ∧ g.holds = false ∧ acquires g.pc = true
  | .building t i, g | .starting t i, g | .waiting t i, g =>
    g = ⟨.idle, t.guarded⟩ ∧ (i : Int) < t.count
  | .stopping t, g => g = ⟨.idle, t.guarded⟩
  | .releasing t _, g => t.guarded = true ∧ g.holds = true ∧ releases g.pc = true

def State.ended (s : State) (p : Pid) : List Ended := s.log.filter (·.proc = p)

/-- What holds of each process, from its own call and its own loops. -/
structure Sound (s : State) (p : Pid) : Prop where
  agrees : (s.procs p).phase.Agrees (s.guard.procs p)
  dead : s.guard.alive p = false → (s.procs p).phase = .out ∧ (s.procs p).running = []
  loops : Loops (s.procs p).phase (s.procs p).calls (s.procs p).running (s.ended p)

/-! ## How the loops change -/

section Loops

variable {phase phase' : Phase} {calls i : Nat} {running : List (Nat × Nat)} {ended : List Ended}
    {p : Pid} {t : Team}

theorem Loops.goto (h : Loops phase calls running ended) (hphase : phase ≠ .out)
    (hlive : ∀ i, phase.Live i → (calls, i) ∈ running → phase'.Live i) :
    Loops phase' calls running ended where
  owned c i hi := (h.owned c i hi).imp_left fun ⟨hc, hl⟩ => ⟨hc, hlive i hl (hc ▸ hi)⟩
  past e he := ⟨(h.past e he).1, fun _ => (h.past e he).2 hphase⟩
  gone := h.gone

theorem Loops.call (h : Loops .out calls running ended) :
    Loops phase (calls + 1) running ended where
  owned c i hi := (h.owned c i hi).elim (fun ⟨_, hl⟩ => hl.elim) .inr
  past e he := by
    have hle := (h.past e he).1
    exact ⟨by omega, fun _ => by omega⟩
  gone := h.gone

theorem Loops.start (h : Loops (.starting t i) calls running ended) (hi : (i : Int) < t.count) :
    Loops (.starting t (i + 1)) calls ((calls, i) :: running) ended where
  owned c j hj := by
    rcases List.mem_cons.mp hj with heq | hj
    · obtain ⟨rfl, rfl⟩ := Prod.mk.inj heq
      exact .inl ⟨rfl, Nat.lt_succ_self j, hi⟩
    · exact (h.owned c j hj).imp_left fun ⟨hc, hlt, hcount⟩ => ⟨hc, Nat.lt_succ_of_lt hlt, hcount⟩
  past e he := ⟨(h.past e he).1, fun _ => (h.past e he).2 (by simp)⟩
  gone e he hleaves j hj := by
    rcases List.mem_cons.mp hj with heq | hj
    · exact (h.past e he).2 (by simp) (Prod.mk.inj heq).1
    · exact h.gone e he hleaves j hj

theorem Loops.finish {outcome : Outcome} (h : Loops phase calls running ended)
    (hphase : phase ≠ .out) (hlive : ∀ i, phase.Live i → (calls, i) ∈ running →
      outcome.leaves = true ∧ (i : Int) < t.count) :
    Loops .out calls running (ended ++ [⟨p, calls, t, outcome⟩]) where
  owned c i hi := by
    right
    rcases h.owned c i hi with ⟨rfl, hl⟩ | ⟨e, he, hrest⟩
    · exact ⟨_, List.mem_append_right _ (List.mem_singleton.mpr rfl), rfl, hlive i hl hi⟩
    · exact ⟨e, List.mem_append_left _ he, hrest⟩
  past e he := by
    rcases List.mem_append.mp he with he | he
    · exact ⟨(h.past e he).1, fun hout => absurd rfl hout⟩
    · obtain rfl := List.mem_singleton.mp he
      exact ⟨Nat.le_refl _, fun hout => absurd rfl hout⟩
  gone e he hleaves i hi := by
    rcases List.mem_append.mp he with he | he
    · exact h.gone e he hleaves i hi
    · obtain rfl := List.mem_singleton.mp he
      rcases h.owned calls i hi with ⟨-, hl⟩ | ⟨e', he', hcall, -, -⟩
      · simp [(hlive i hl hi).1] at hleaves
      · exact (h.past e' he').2 hphase hcall

theorem Loops.subset {running' : List (Nat × Nat)} (h : Loops phase calls running ended)
    (hsub : running' ⊆ running) :
    Loops phase calls running' ended where
  owned c i hi := h.owned c i (hsub hi)
  past := h.past
  gone e he hleaves i hi := h.gone e he hleaves i (hsub hi)

theorem Loops.exit (h : Loops phase calls running ended) : Loops .out calls [] ended where
  owned _ _ hi := absurd hi List.not_mem_nil
  past e he := ⟨(h.past e he).1, fun hout => absurd rfl hout⟩
  gone _ _ _ _ := List.not_mem_nil

end Loops

end Swarm.Perpetual.Launch
