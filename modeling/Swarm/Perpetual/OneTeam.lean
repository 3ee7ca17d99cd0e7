import Swarm.Perpetual.Launch

/-!
# One team under the pidfile

What the step of one process does to that process, to the others and to the guard, and from it what
holds along every run of launches.
-/

namespace Swarm.Perpetual.Launch

open Lib
open Pidfile (Pid)

/-! ## What a step of the guard does -/

section Guard

variable {g g' : Pidfile.State} {p : Pid}

theorem advance_cases (h : Pidfile.advance p g = some g') :
    g'.alive = g.alive ∧ (∀ q, q ≠ p → g'.procs q = g.procs q) ∧
      (acquires (g.procs p).pc = true →
        (g'.procs p).pc = .idle ∨ acquires (g'.procs p).pc = true ∧
          (g'.procs p).holds = (g.procs p).holds) ∧
      (releases (g.procs p).pc = true → g'.procs p = ⟨.idle, false⟩ ∨
        releases (g'.procs p).pc = true ∧ (g'.procs p).holds = (g.procs p).holds) := by
  unfold Pidfile.advance at h
  split at h
  case h_1 => simp at h
  case h_2 hpc =>
    obtain rfl := Option.some.inj h
    refine ⟨rfl, fun q hq => by simp [Pidfile.State.goto, hq], fun _ => .inr ?_, by simp [hpc, releases]⟩
    cases g.disk.readPid <;> simp [Pidfile.State.goto, Pidfile.afterRead, acquires]
  case h_3 owner hpc =>
    -- A number that is no pid raises, and so does a live owner other than `p`.
    split at h
    · obtain rfl := Option.some.inj h
      exact ⟨rfl, fun q hq => by simp [Pidfile.State.goto, hq], fun _ => .inl (by simp [Pidfile.State.goto]),
        by simp [hpc, releases]⟩
    · split at h
      · obtain rfl := Option.some.inj h
        exact ⟨rfl, fun q hq => by simp [Pidfile.State.goto, hq], fun _ => .inl (by simp [Pidfile.State.goto]),
          by simp [hpc, releases]⟩
      · obtain rfl := Option.some.inj h
        exact ⟨rfl, fun q hq => by simp [Pidfile.State.goto, hq],
          fun _ => .inr (by simp [Pidfile.State.goto, acquires]), by simp [hpc, releases]⟩
  case h_4 hpc =>
    obtain rfl := Option.some.inj h
    exact ⟨rfl, fun q hq => by simp [Pidfile.State.goto, hq],
      fun _ => .inr (by simp [Pidfile.State.goto, acquires]), by simp [hpc, releases]⟩
  case h_5 file hpc =>
    obtain rfl := Option.some.inj h
    exact ⟨rfl, fun q hq => by simp [Pidfile.State.leave, hq], fun _ => .inl (by simp [Pidfile.State.leave]),
      by simp [hpc, releases]⟩
  case h_6 hpc =>
    -- A release removes the file only if it names this process.
    split at h
    · obtain rfl := Option.some.inj h
      exact ⟨rfl, fun q hq => by simp [Pidfile.State.goto, hq], by simp [hpc, acquires],
        fun _ => .inr (by simp [Pidfile.State.goto, releases])⟩
    · obtain rfl := Option.some.inj h
      exact ⟨rfl, fun q hq => by simp [Pidfile.State.leave, hq], by simp [hpc, acquires],
        fun _ => .inl (by simp [Pidfile.State.leave])⟩
  case h_7 hpc =>
    obtain rfl := Option.some.inj h
    exact ⟨rfl, fun q hq => by simp [Pidfile.State.leave, hq], by simp [hpc, acquires],
      fun _ => .inl (by simp [Pidfile.State.leave])⟩

theorem go_cases (h : Pidfile.step (.go p) g = some g') :
    g.alive p = true ∧ Pidfile.advance p g = some g' := by
  simpa [Pidfile.step] using h

theorem acquire_cases (h : Pidfile.step (.acquire p) g = some g') :
    g'.alive = g.alive ∧ (∀ q, q ≠ p → g'.procs q = g.procs q) ∧ acquires (g'.procs p).pc = true ∧
      (g'.procs p).holds = (g.procs p).holds := by
  simp only [Pidfile.step] at h
  split at h
  · obtain rfl := Option.some.inj h
    refine ⟨rfl, fun q hq => by simp [Pidfile.State.goto, hq], ?_, by simp [Pidfile.State.goto]⟩
    cases g.disk.link <;> simp [Pidfile.State.goto, acquires]
  · simp at h

theorem release_cases (h : Pidfile.step (.release p) g = some g') :
    g'.alive = g.alive ∧ (∀ q, q ≠ p → g'.procs q = g.procs q) ∧
      (g'.procs p = ⟨.idle, false⟩ ∨ releases (g'.procs p).pc = true ∧
        (g'.procs p).holds = (g.procs p).holds) := by
  simp only [Pidfile.step] at h
  split at h
  · obtain rfl := Option.some.inj h
    cases g.disk.link with
    | none =>
      exact ⟨rfl, fun q hq => by simp [Pidfile.State.leave, hq], .inl (by simp [Pidfile.State.leave])⟩
    | some file =>
      exact ⟨rfl, fun q hq => by simp [Pidfile.State.goto, hq],
        .inr (by simp [Pidfile.State.goto, releases])⟩
  · simp at h

end Guard

/-! ## What a step leaves alone -/

def State.view (s : State) (q : Pid) : Bool × Pidfile.Proc × Proc × List Ended :=
  (s.guard.alive q, s.guard.procs q, s.procs q, s.ended q)

theorem Sound.of_view {s s' : State} {q : Pid} (h : Sound s q) (hview : s'.view q = s.view q) :
    Sound s' q := by
  simp only [State.view, Prod.mk.injEq] at hview
  obtain ⟨halive, hguard, hproc, hended⟩ := hview
  refine ⟨?_, ?_, ?_⟩
  · rw [hproc, hguard]
    exact h.agrees
  · rw [halive, hproc]
    exact h.dead
  · rw [hproc, hended]
    exact h.loops

/-- A step of `p` leaves what the state says of the others. -/
def Others (p : Pid) (s s' : State) : Prop := ∀ q, q ≠ p → s'.view q = s.view q

theorem Others.trans {p : Pid} {s s' s'' : State} (h : Others p s s') (h' : Others p s' s'') :
    Others p s s'' :=
  fun q hq => (h' q hq).trans (h q hq)

theorem others_set (p : Pid) (proc : Proc) (s : State) : Others p s (s.set p proc) :=
  fun q hq => by simp [State.view, State.set, State.ended, hq]

theorem others_guard {p : Pid} {s : State} {g : Pidfile.State} (halive : g.alive = s.guard.alive)
    (hprocs : ∀ q, q ≠ p → g.procs q = s.guard.procs q) : Others p s { s with guard := g } :=
  fun q hq => by simp [State.view, State.ended, halive, hprocs q hq]

theorem others_finish (p : Pid) (t : Team) (outcome : Outcome) (s : State) :
    Others p s (s.finish p t outcome) := by
  intro q hq
  have hqp : p ≠ q := fun heq => hq heq.symm
  simp [State.view, State.finish, State.goto, State.set, State.ended, hq, hqp]

/-! ## Where a call goes -/

section Next

variable {s s' : State} {p : Pid} {t : Team} {phase : Phase} {outcome : Outcome}

theorem goto_sound {phase' : Phase} (halive : s.guard.alive p = true)
    (hagrees : phase'.Agrees (s.guard.procs p))
    (hloops : Loops phase' (s.procs p).calls (s.procs p).running (s.ended p)) :
    Sound (s.goto p phase') p where
  agrees := by simpa [State.goto, State.set] using hagrees
  dead hdead := by simp [State.goto, State.set, halive] at hdead
  loops := by simpa [State.goto, State.set, State.ended] using hloops

theorem finish_sound (halive : s.guard.alive p = true) (hguard : s.guard.procs p = ⟨.idle, false⟩)
    (hloops : Loops phase (s.procs p).calls (s.procs p).running (s.ended p)) (hphase : phase ≠ .out)
    (hlive : ∀ i, phase.Live i → ((s.procs p).calls, i) ∈ (s.procs p).running →
      outcome.leaves = true ∧ (i : Int) < t.count) : Sound (s.finish p t outcome) p where
  agrees := by simpa [State.finish, State.goto, State.set, Phase.Agrees] using hguard
  dead hdead := by simp [State.finish, State.goto, State.set, halive] at hdead
  loops := by
    have h := hloops.finish (p := p) hphase hlive
    simpa [State.finish, State.goto, State.set, State.ended] using h

theorem leave_next (halive : s.guard.alive p = true) (hguard : s.guard.procs p = ⟨.idle, t.guarded⟩)
    (hloops : Loops phase (s.procs p).calls (s.procs p).running (s.ended p)) (hphase : phase ≠ .out)
    (hlive : ∀ i, phase.Live i → ((s.procs p).calls, i) ∈ (s.procs p).running →
      outcome.leaves = true ∧ (i : Int) < t.count)
    (h : leave p t outcome s = some s') :
    Sound s' p ∧ Others p s s' ∧ (s'.guard = s.guard ∨
      Pidfile.step (.release p) s.guard = some s'.guard) := by
  unfold leave at h
  split at h
  case isTrue hguarded =>
    obtain ⟨g, hg, rfl⟩ := Option.map_eq_some_iff.mp h
    obtain ⟨hsame, hothers, hpc⟩ := release_cases hg
    have halive' : g.alive p = true := by rw [hsame]; exact halive
    have hframe := others_guard (s := s) hsame hothers
    split
    case isTrue hidle =>
      have hfree : g.procs p = ⟨.idle, false⟩ :=
        hpc.resolve_right fun hrel => by simp [hidle, releases] at hrel
      exact ⟨finish_sound halive' hfree hloops hphase hlive, hframe.trans (others_finish p t outcome _), .inr hg⟩
    case isFalse hbusy =>
      obtain ⟨hrel, hholds⟩ := hpc.resolve_left fun hfree => hbusy (by rw [hfree])
      refine ⟨goto_sound halive' ⟨hguarded, ?_, hrel⟩ (hloops.goto hphase hlive), hframe.trans (others_set p _ _),
        .inr hg⟩
      rw [hholds, hguard, hguarded]
  case isFalse hfree =>
    obtain rfl := Option.some.inj h
    have hidle : s.guard.procs p = ⟨.idle, false⟩ := by simpa [hfree] using hguard
    exact ⟨finish_sound halive hidle hloops hphase hlive, others_finish p t outcome s, .inl rfl⟩

end Next

/-! ## One step -/

/-- A step of the guard acts on what its call saw. -/
def StillTrue (s : State) (l : Label) : Prop :=
  match l.act with
  | .guard => Pidfile.StillTrue s.guard (.go l.proc)
  | _ => True

def GuardStep (l : Label) (s s' : State) : Prop :=
  s'.guard = s.guard ∨
    ∃ gl, Pidfile.step gl s.guard = some s'.guard ∧ (StillTrue s l → Pidfile.StillTrue s.guard gl)

/-- What every step owes to its process, to the others and to the guard. -/
def Next (l : Label) (s s' : State) : Prop :=
  Sound s' l.proc ∧ Others l.proc s s' ∧ GuardStep l s s'

section Act

variable {s s' : State} {p : Pid} {a : Act} {t : Team} {i : Nat} {outcome : Outcome}

theorem next_of_leave
    (h : Sound s' p ∧ Others p s s' ∧
      (s'.guard = s.guard ∨ Pidfile.step (.release p) s.guard = some s'.guard)) :
    Next ⟨p, a⟩ s s' :=
  ⟨h.1, h.2.1, h.2.2.imp_right fun hg => ⟨.release p, hg, fun _ => trivial⟩⟩

theorem next_of_goto {phase : Phase} (h : Sound (s.goto p phase) p) :
    Next ⟨p, a⟩ s (s.goto p phase) :=
  ⟨h, others_set p _ s, .inl rfl⟩

theorem Next.after {s₁ : State} (h : Next ⟨p, a⟩ s₁ s') (hothers : Others p s s₁)
    (hguard : s₁.guard = s.guard) :
    Next ⟨p, a⟩ s s' := by
  obtain ⟨hsound, hothers', hstep⟩ := h
  refine ⟨hsound, hothers.trans hothers', ?_⟩
  simpa only [GuardStep, StillTrue, hguard] using hstep

theorem out_next (hs : Sound s p) (halive : s.guard.alive p = true)
    (hphase : (s.procs p).phase = .out) (h : act p a s = some s') : Next ⟨p, a⟩ s s' := by
  have hguard : s.guard.procs p = ⟨.idle, false⟩ := by simpa [hphase, Phase.Agrees] using hs.agrees
  have hloops := hs.loops
  rw [hphase] at hloops
  cases a with
  | call t =>
    simp only [act, hphase] at h
    split at h
    case isTrue =>
      obtain rfl := Option.some.inj h
      have hbegun : Loops (.acquiring t) ((s.procs p).calls + 1) (s.procs p).running (s.ended p) :=
        hloops.call
      have hsound : Sound ((s.enter p .out).finish p t .valueError) p :=
        finish_sound halive hguard (by simpa [State.enter, State.set, State.ended] using hbegun) (by simp)
          (by simp [Phase.Live])
      exact ⟨hsound, (others_set p _ s).trans (others_finish p t _ _), .inl rfl⟩
    case isFalse hcount =>
      have hzero : 0 < t.count := by omega
      split at h
      case isTrue hguarded =>
        obtain ⟨g, hg, rfl⟩ := Option.map_eq_some_iff.mp h
        obtain ⟨hsame, hothers, hacq, hholds⟩ := acquire_cases hg
        refine ⟨⟨?_, ?_, ?_⟩, (others_guard hsame hothers).trans (others_set p _ _),
          .inr ⟨.acquire p, hg, fun _ => trivial⟩⟩
        · simp [State.enter, State.set, Phase.Agrees, hzero, hguarded, hholds, hguard, hacq]
        · simp [State.enter, State.set, hsame, halive]
        · simpa [State.enter, State.set, State.ended] using hloops.call
      case isFalse hfree =>
        obtain rfl := Option.some.inj h
        refine ⟨⟨?_, ?_, ?_⟩, others_set p _ s, .inl rfl⟩
        · simpa [State.enter, State.set, Phase.Agrees, hguard, hfree] using hzero
        · simp [State.enter, State.set, halive]
        · simpa [State.enter, State.set, State.ended] using hloops.call
  | _ => simp [act, hphase] at h

theorem acquiring_next (hs : Sound s p) (hphase : (s.procs p).phase = .acquiring t)
    (h : act p a s = some s') : Next ⟨p, a⟩ s s' := by
  have hagrees := hs.agrees
  rw [hphase] at hagrees
  obtain ⟨hcount, hguarded, hfree, hacq⟩ := hagrees
  have hloops := hs.loops
  rw [hphase] at hloops
  cases a with
  | guard =>
    simp only [act, hphase] at h
    obtain ⟨g, hg, rfl⟩ := Option.map_eq_some_iff.mp h
    obtain ⟨halive, hadv⟩ := go_cases hg
    obtain ⟨hsame, hothers, hgo, -⟩ := advance_cases hadv
    have halive' : g.alive p = true := by rw [hsame]; exact halive
    have hframe := others_guard (s := s) hsame hothers
    have hstep : ∀ s'' : State, s''.guard = g → GuardStep ⟨p, .guard⟩ s s'' :=
      fun s'' hs'' => .inr ⟨.go p, by rw [hs'', hg], fun hl => hl⟩
    split
    case isTrue hbusy =>
      obtain ⟨hacq', hholds⟩ := (hgo hacq).resolve_left hbusy
      refine ⟨⟨?_, ?_, ?_⟩, hframe, hstep _ rfl⟩
      · simp [hphase, Phase.Agrees, hcount, hguarded, hacq', hholds, hfree]
      · simp [halive']
      · simpa [State.ended, hphase] using hloops
    case isFalse hidle =>
      have hpc : (g.procs p).pc = .idle := not_not.mp hidle
      split
      case isTrue hholds =>
        have hproc : g.procs p = ⟨.idle, t.guarded⟩ := by rw [hguarded, ← hpc, ← hholds]
        exact ⟨goto_sound halive' ⟨hproc, hcount⟩ (hloops.goto (by simp) fun i hl => hl.elim),
          hframe.trans (others_set p _ _), hstep _ rfl⟩
      case isFalse hrefused =>
        have hproc : g.procs p = ⟨.idle, false⟩ := by rw [← hpc, ← Bool.eq_false_iff.mpr hrefused]
        exact ⟨finish_sound halive' hproc hloops (by simp) fun i hl => hl.elim,
          hframe.trans (others_finish p t _ _), hstep _ rfl⟩
  | _ => simp [act, hphase] at h

theorem releasing_next (hs : Sound s p) (hphase : (s.procs p).phase = .releasing t outcome)
    (h : act p a s = some s') : Next ⟨p, a⟩ s s' := by
  have hagrees := hs.agrees
  rw [hphase] at hagrees
  obtain ⟨hguarded, hheld, hrel⟩ := hagrees
  have hloops := hs.loops
  rw [hphase] at hloops
  cases a with
  | guard =>
    simp only [act, hphase] at h
    obtain ⟨g, hg, rfl⟩ := Option.map_eq_some_iff.mp h
    obtain ⟨halive, hadv⟩ := go_cases hg
    obtain ⟨hsame, hothers, -, hgo⟩ := advance_cases hadv
    have halive' : g.alive p = true := by rw [hsame]; exact halive
    have hframe := others_guard (s := s) hsame hothers
    have hstep : ∀ s'' : State, s''.guard = g → GuardStep ⟨p, .guard⟩ s s'' :=
      fun s'' hs'' => .inr ⟨.go p, by rw [hs'', hg], fun hl => hl⟩
    split
    case isTrue hbusy =>
      obtain ⟨hrel', hholds⟩ := (hgo hrel).resolve_left fun hfree => hbusy (by rw [hfree])
      refine ⟨⟨?_, ?_, ?_⟩, hframe, hstep _ rfl⟩
      · simp [hphase, Phase.Agrees, hguarded, hrel', hholds, hheld]
      · simp [halive']
      · simpa [State.ended, hphase] using hloops
    case isFalse hidle =>
      have hproc : g.procs p = ⟨.idle, false⟩ :=
        (hgo hrel).resolve_right fun hrel' => hidle fun hpc => by simp [hpc, releases] at hrel'
      exact ⟨finish_sound halive' hproc hloops (by simp) fun i hl _ => hl,
        hframe.trans (others_finish p t _ _), hstep _ rfl⟩
  | _ => simp [act, hphase] at h

theorem building_next (hs : Sound s p) (halive : s.guard.alive p = true)
    (hphase : (s.procs p).phase = .building t i) (h : act p a s = some s') : Next ⟨p, a⟩ s s' := by
  have hagrees := hs.agrees
  rw [hphase] at hagrees
  obtain ⟨hguard, hi⟩ := hagrees
  have hloops := hs.loops
  rw [hphase] at hloops
  cases a with
  | build ok =>
    simp only [act, hphase] at h
    split at h
    case isTrue =>
      obtain rfl := Option.some.inj h
      refine next_of_goto ?_
      split
      case isTrue hlt =>
        exact goto_sound halive ⟨hguard, by exact_mod_cast hlt⟩ (hloops.goto (by simp) fun i hl => hl.elim)
      case isFalse =>
        have hzero : ((0 : Nat) : Int) < t.count := by omega
        exact goto_sound halive ⟨hguard, hzero⟩ (hloops.goto (by simp) fun i hl => hl.elim)
    case isFalse => exact next_of_leave (leave_next halive hguard hloops (by simp) (fun i hl => hl.elim) h)
  | _ => simp [act, hphase] at h

theorem run_goto_next {phase : Phase} (halive : s.guard.alive p = true)
    (hagrees : phase.Agrees (s.guard.procs p))
    (hloops : Loops phase (s.procs p).calls (((s.procs p).calls,
      i) :: (s.procs p).running) (s.ended p)) :
    Next ⟨p, a⟩ s ((s.run p i).goto p phase) := by
  have hsound : Sound ((s.run p i).goto p phase) p :=
    goto_sound halive hagrees (by simpa [State.run, State.set, State.ended] using hloops)
  exact (next_of_goto hsound).after (others_set p _ s) rfl

theorem starting_next (hs : Sound s p) (halive : s.guard.alive p = true)
    (hphase : (s.procs p).phase = .starting t i) (h : act p a s = some s') : Next ⟨p, a⟩ s s' := by
  have hagrees := hs.agrees
  rw [hphase] at hagrees
  obtain ⟨hguard, hi⟩ := hagrees
  have hloops := hs.loops
  rw [hphase] at hloops
  cases a with
  | start ok =>
    simp only [act, hphase] at h
    split at h
    case isTrue =>
      have hrunning := hloops.start hi
      split at h
      case isTrue hlt =>
        obtain rfl := Option.some.inj h
        exact run_goto_next halive ⟨hguard, by exact_mod_cast hlt⟩ hrunning
      case isFalse hlast =>
        split at h
        case isTrue =>
          obtain rfl := Option.some.inj h
          have hzero : ((0 : Nat) : Int) < t.count := by omega
          exact run_goto_next halive ⟨hguard, hzero⟩
            (hrunning.goto (by simp) fun j hl _ => ⟨Nat.zero_le j, hl.2⟩)
        case isFalse =>
          have hrunning' : Loops (.starting t (i + 1)) ((s.run p i).procs p).calls ((s.run p i).procs p).running
              ((s.run p i).ended p) := by simpa [State.run, State.set, State.ended] using hrunning
          have hleft := leave_next (s := s.run p i) halive hguard hrunning' (by simp) (fun j hl _ => ⟨rfl, hl.2⟩) h
          exact (next_of_leave hleft).after (others_set p _ s) rfl
    case isFalse =>
      exact next_of_leave (leave_next halive hguard hloops (by simp) (fun i hl _ => ⟨rfl, hl.2⟩) h)
  | _ => simp [act, hphase] at h

theorem waiting_next (hs : Sound s p) (halive : s.guard.alive p = true)
    (hphase : (s.procs p).phase = .waiting t i) (h : act p a s = some s') : Next ⟨p, a⟩ s s' := by
  have hagrees := hs.agrees
  rw [hphase] at hagrees
  obtain ⟨hguard, hi⟩ := hagrees
  have hloops := hs.loops
  rw [hphase] at hloops
  cases a with
  | wait =>
    simp only [act, hphase] at h
    split at h
    case isTrue =>
      obtain rfl := Option.some.inj h
      exact ⟨hs, fun _ _ => rfl, .inl rfl⟩
    case isFalse hover =>
      -- The loop is over, so only the later ones may run.
      have hnext : ∀ j, (Phase.waiting t i).Live j → ((s.procs p).calls, j) ∈ (s.procs p).running →
          (Phase.waiting t (i + 1)).Live j := by
        rintro j ⟨hle, hj⟩ hrunning
        have hne : i ≠ j := by
          rintro rfl
          exact hover hrunning
        exact ⟨by omega, hj⟩
      split at h
      case isTrue hlt =>
        obtain rfl := Option.some.inj h
        exact next_of_goto (goto_sound halive ⟨hguard, by exact_mod_cast hlt⟩ (hloops.goto (by simp) hnext))
      case isFalse hlast =>
        have hgone := hloops.goto (by simp) hnext
        refine next_of_leave (leave_next halive hguard hgone (by simp) ?_ h)
        rintro j ⟨hle, hj⟩
        omega
  | interrupt =>
    obtain rfl : s.goto p (.stopping t) = s' := by simpa [act, hphase] using h
    exact next_of_goto (goto_sound halive hguard (hloops.goto (by simp) fun i hl _ => hl.2))
  | raises =>
    simp only [act, hphase] at h
    exact next_of_leave (leave_next halive hguard hloops (by simp) (fun i hl _ => ⟨rfl, hl.2⟩) h)
  | _ => simp [act, hphase] at h

theorem stopping_next (hs : Sound s p) (halive : s.guard.alive p = true)
    (hphase : (s.procs p).phase = .stopping t) (h : act p a s = some s') : Next ⟨p, a⟩ s s' := by
  have hguard := hs.agrees
  rw [hphase] at hguard
  have hloops := hs.loops
  rw [hphase] at hloops
  cases a with
  | joined | raises =>
    simp only [act, hphase] at h
    exact next_of_leave (leave_next halive hguard hloops (by simp) (fun i hl _ => ⟨rfl, hl⟩) h)
  | _ => simp [act, hphase] at h

theorem act_next (hs : Sound s p) (halive : s.guard.alive p = true) (h : act p a s = some s') :
    Next ⟨p, a⟩ s s' := by
  cases hphase : (s.procs p).phase with
  | out => exact out_next hs halive hphase h
  | acquiring t => exact acquiring_next hs hphase h
  | building t i => exact building_next hs halive hphase h
  | starting t i => exact starting_next hs halive hphase h
  | waiting t i => exact waiting_next hs halive hphase h
  | stopping t => exact stopping_next hs halive hphase h
  | releasing t outcome => exact releasing_next hs hphase h

end Act

theorem start_cases {g g' : Pidfile.State} {p : Pid} (h : Pidfile.step (.start p) g = some g') :
    g.alive p = false ∧ g' = { g.leave p false with alive := Function.update g.alive p true } := by
  simp only [Pidfile.step] at h
  split at h
  case isTrue => simp at h
  case isFalse hdead => exact ⟨by simpa using hdead, (Option.some.inj h).symm⟩

theorem exit_cases {g g' : Pidfile.State} {p : Pid} (h : Pidfile.step (.exit p) g = some g') :
    g' = { g.leave p false with alive := Function.update g.alive p false } := by
  simp only [Pidfile.step] at h
  split at h
  · exact (Option.some.inj h).symm
  · simp at h

theorem step_next {s s' : State} {l : Label} (hs : Sound s l.proc) (h : step l s = some s') :
    Next l s s' := by
  obtain ⟨p, a⟩ := l
  cases a with
  | born =>
    -- A process starts idle and outside every phase, whatever had its number before.
    obtain ⟨g, hg, rfl⟩ := Option.map_eq_some_iff.mp h
    obtain ⟨hdead, rfl⟩ := start_cases hg
    obtain ⟨hout, hnone⟩ := hs.dead hdead
    refine ⟨⟨?_, ?_, ?_⟩, fun q hq => ?_, .inr ⟨.start p, hg, fun _ => trivial⟩⟩
    · simp [hout, Phase.Agrees, Pidfile.State.leave]
    · simp
    · simpa [State.ended] using hs.loops
    · simp [State.view, State.ended, Pidfile.State.leave, hq]
  | exit =>
    obtain ⟨g, hg, rfl⟩ := Option.map_eq_some_iff.mp h
    obtain rfl := exit_cases hg
    refine ⟨⟨?_, ?_, ?_⟩, fun q hq => ?_, .inr ⟨.exit p, hg, fun _ => trivial⟩⟩
    · simp [State.set, Phase.Agrees, Pidfile.State.leave]
    · simp [State.set]
    · simpa [State.set, State.ended] using hs.loops.exit
    · simp [State.view, State.set, State.ended, Pidfile.State.leave, hq]
  | ends call i =>
    -- The loop that ends is no part of what another process sees.
    simp only [step] at h
    split at h
    · obtain rfl := Option.some.inj h
      refine ⟨⟨?_, ?_, ?_⟩, others_set p _ s, .inl rfl⟩
      · simpa [State.set] using hs.agrees
      · intro hdead
        obtain ⟨hout, hnone⟩ := hs.dead hdead
        simp [State.set, hout, hnone]
      · simpa [State.set, State.ended] using hs.loops.subset List.erase_subset
    · simp at h
  | _ =>
    simp only [step] at h
    split at h
    · exact act_next hs ‹_› h
    · simp at h

/-! ## Every run -/

/-- No call has begun. -/
def State.Fresh (s : State) : Prop := s.guard.Fresh ∧ (∀ p, s.procs p = ⟨.out, 0, []⟩) ∧ s.log = []

theorem sound_fresh {s : State} (h : s.Fresh) (p : Pid) : Sound s p := by
  obtain ⟨hguard, hprocs, hlog⟩ := h
  refine ⟨?_, fun _ => by simp [hprocs p], ⟨?_, ?_, ?_⟩⟩
  · simp [hprocs p, Phase.Agrees, hguard.1 p]
  all_goals simp [hprocs p, State.ended, hlog]

theorem sound_step {s s' : State} {l : Label} (hs : ∀ p, Sound s p) (h : step l s = some s')
    (p : Pid) :
    Sound s' p := by
  obtain ⟨hsound, hothers, -⟩ := step_next (hs l.proc) h
  by_cases hp : p = l.proc
  · rw [hp]
    exact hsound
  · exact (hs p).of_view (hothers p hp)

theorem sound_path {s : State} (hfresh : s.Fresh) (labels : List Label) :
    ∀ taken ∈ path step s labels, ∀ p, Sound taken.after p :=
  path_invariant (fun s _ _ (h : ∀ p, Sound s p) (_ : True) hs => sound_step h hs) s labels (sound_fresh hfresh)
    fun _ _ => trivial

/-- The loop belongs to the call that the process is in, or to one that left it. -/
def State.Owned (s : State) (p : Pid) (c i : Nat) : Prop :=
  c = (s.procs p).calls ∧ (s.procs p).phase.Live i ∨
    ∃ e ∈ s.log, e.proc = p ∧ e.call = c ∧ e.outcome.leaves = true ∧ (i : Int) < e.team.count

/-- **A call that returns leaves no loop behind.** Only one that is detached, interrupted or
broken, or that could not start all its loops, may. -/
theorem loops_accounted (s : State) (labels : List Label) (hfresh : s.Fresh) :
    ∀ taken ∈ path step s labels,
      (∀ p c i, (c, i) ∈ (taken.after.procs p).running → taken.after.Owned p c i) ∧
        ∀ e ∈ taken.after.log, e.outcome.leaves = false →
          ∀ i, (e.call, i) ∉ (taken.after.procs e.proc).running := by
  intro taken htaken
  have hsound := sound_path hfresh labels taken htaken
  refine ⟨fun p c i hi => ?_, fun e he hleaves => ?_⟩
  · refine ((hsound p).loops.owned c i hi).imp_right ?_
    rintro ⟨e, he, hrest⟩
    obtain ⟨hlog, hproc⟩ := List.mem_filter.mp he
    exact ⟨e, hlog, by simpa using hproc, hrest⟩
  · exact (hsound e.proc).loops.gone e (List.mem_filter.mpr ⟨he, by simp⟩) hleaves

theorem Sound.guarded_iff {s : State} {p : Pid} (h : Sound s p) :
    (s.procs p).phase.Guarded ↔ s.guard.Holder p := by
  have hagrees := h.agrees
  have halive : (s.procs p).phase ≠ .out → s.guard.alive p = true := fun hphase => by
    by_contra hdead
    exact hphase (h.dead (by simpa using hdead)).1
  cases hphase : (s.procs p).phase <;> rw [hphase] at hagrees halive <;>
    simp_all [Phase.Guarded, Phase.Agrees, Pidfile.State.Holder]

/-- **One team at a time under the pidfile.** A call holds it from its first loop to its return,
whatever comes between. Where every act of the guard finds what its call saw, no two calls do. -/
theorem one_team (s : State) (labels : List Label) (hfresh : s.Fresh) :
    (∀ taken ∈ path step s labels, ∀ p, (taken.after.procs p).phase.Guarded ↔
      taken.after.guard.Holder p) ∧
      ((∀ taken ∈ path step s labels, StillTrue taken.before taken.label) →
        ∀ taken ∈ path step s labels,
        ∀ p q, (taken.after.procs p).phase.Guarded → (taken.after.procs q).phase.Guarded →
          p = q) := by
  refine ⟨fun taken htaken p => (sound_path hfresh labels taken htaken p).guarded_iff, fun htrue => ?_⟩
  have hstep : ∀ s l s', ((∀ p, Sound s p) ∧ Pidfile.Inv s.guard) → StillTrue s l → step l s = some s' →
      (∀ p, Sound s' p) ∧ Pidfile.Inv s'.guard := by
    rintro s l s' ⟨hsound, hinv⟩ hl hs
    refine ⟨sound_step hsound hs, ?_⟩
    rcases (step_next (hsound l.proc) hs).2.2 with hsame | ⟨gl, hg, hstill⟩
    · rw [hsame]
      exact hinv
    · exact hinv.step (hstill hl) hg
  intro taken htaken p q hp hq
  obtain ⟨hsound, hinv⟩ :=
    path_invariant hstep s labels ⟨sound_fresh hfresh, Pidfile.inv_fresh hfresh.1⟩ htrue taken
    htaken
  exact hinv.exclusive p q ((hsound p).guarded_iff.mp hp) ((hsound q).guarded_iff.mp hq)

/-! ## A second launch -/

open Pidfile (seven eight)

def noLaunch : State := ⟨Pidfile.twoAlive, fun _ => ⟨.out, 0, []⟩, []⟩

/-- `eight` is refused while the team of `seven` runs, and the interrupt of `seven` leaves its
loops. -/
def secondLaunch : List Label :=
  [⟨seven, .call ⟨2, true, true⟩⟩, ⟨seven, .guard⟩, ⟨seven, .guard⟩, ⟨seven, .build true⟩, ⟨seven, .build true⟩,
    ⟨seven, .start true⟩, ⟨seven, .start true⟩, ⟨eight, .call ⟨1, true, false⟩⟩, ⟨eight, .guard⟩, ⟨eight, .guard⟩,
    ⟨seven, .interrupt⟩, ⟨seven, .joined⟩, ⟨seven, .guard⟩, ⟨seven, .guard⟩]

theorem noLaunch_fresh : noLaunch.Fresh :=
  ⟨⟨fun _ => rfl, fun file h => by simp [noLaunch, Pidfile.twoAlive] at h⟩, fun _ => rfl, rfl⟩

theorem secondLaunch_accounted :
    ((final step noLaunch secondLaunch).log.map (·.outcome) = [.refused, .interrupted] ∧
      ((final step noLaunch secondLaunch).procs seven).running = [(1, 1), (1, 0)]) ∧
    ∀ taken ∈ path step noLaunch secondLaunch,
      (∀ p c i, (c, i) ∈ (taken.after.procs p).running → taken.after.Owned p c i) ∧
        ∀ e ∈ taken.after.log, e.outcome.leaves = false →
          ∀ i, (e.call, i) ∉ (taken.after.procs e.proc).running :=
  ⟨⟨rfl, rfl⟩, loops_accounted noLaunch secondLaunch noLaunch_fresh⟩

theorem secondLaunch_stillTrue :
    ∀ taken ∈ path step noLaunch secondLaunch, StillTrue taken.before taken.label := by
  have hcons := @forall_path_cons State Label step fun taken => StillTrue taken.before taken.label
  refine (hcons rfl).mpr ⟨trivial, ?_⟩
  refine (hcons rfl).mpr ⟨⟨fun _ => ⟨?_, ?_⟩, fun h => absurd h (by decide)⟩, ?_⟩
  · intro owner howner
    have hnone : noLaunch.guard.disk.readPid = none := by decide
    exact absurd (hnone.symm.trans howner) (by simp)
  · rintro q ⟨-, file, hpc⟩
    by_cases hq : q = seven
    · subst hq
      simp [Pidfile.State.goto, State.enter, State.set, noLaunch, Pidfile.twoAlive] at hpc
    · simp [Pidfile.State.goto, State.enter, State.set, noLaunch, Pidfile.twoAlive, hq] at hpc
  refine (hcons rfl).mpr ⟨Pidfile.stillTrue_of_pc (by decide) (by decide), ?_⟩
  refine (hcons rfl).mpr ⟨trivial, (hcons rfl).mpr ⟨trivial, ?_⟩⟩
  refine (hcons rfl).mpr ⟨trivial, (hcons rfl).mpr ⟨trivial, ?_⟩⟩
  refine (hcons rfl).mpr ⟨trivial, ?_⟩
  refine (hcons rfl).mpr ⟨Pidfile.stillTrue_of_pc (by decide) (by decide), ?_⟩
  refine (hcons rfl).mpr ⟨Pidfile.stillTrue_of_pc (by decide) (by decide), ?_⟩
  refine (hcons rfl).mpr ⟨trivial, (hcons rfl).mpr ⟨trivial, ?_⟩⟩
  refine (hcons rfl).mpr ⟨Pidfile.stillTrue_of_pc (by decide) (by decide), ?_⟩
  exact (hcons rfl).mpr ⟨⟨fun h => absurd h (by decide), fun _ => rfl⟩, by simp [path]⟩

theorem secondLaunch_team :
    (¬ (final step noLaunch secondLaunch).guard.Holder seven) ∧
      (∀ taken ∈ path step noLaunch secondLaunch,
        ∀ p, (taken.after.procs p).phase.Guarded ↔ taken.after.guard.Holder p) ∧
      ∀ taken ∈ path step noLaunch secondLaunch,
        ∀ p q, (taken.after.procs p).phase.Guarded → (taken.after.procs q).phase.Guarded →
          p = q := by
  obtain ⟨hheld, hone⟩ := one_team noLaunch secondLaunch noLaunch_fresh
  exact ⟨fun h => absurd h.2 (by decide), hheld, hone secondLaunch_stillTrue⟩

end Swarm.Perpetual.Launch
