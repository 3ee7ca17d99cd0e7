import Swarm.Perpetual.Guard

/-!
# The daemon of a home, as `cli/main.py` starts, watches and stops it

`run --daemon`, `daemon-status` and `daemon-stop` share one pidfile and no lock. A step is one thing
that a command does to the file or to a process; any number of commands may be under way.
-/

namespace Swarm.Cli.Daemon

open Lib Perpetual.Pidfile

/-! ## Processes and commands -/

/-- A process of the machine, whoever started it. -/
structure Process where
  daemon : Bool
  /-- Owned by the user of the commands. -/
  ours : Bool
  deriving DecidableEq

/-- The two commands that read the pidfile. -/
inductive Asked
  | status
  | stop
  deriving DecidableEq

/-- What a command prints. -/
inductive Answer
  | daemonized (pid : Pid)
  | alive (pid : Int)
  | notAlive
  | stopped (pid : Int)
  | notStopped
  deriving DecidableEq

/-- Where a command stands. -/
inductive Cmd
  /-- `none` before the first command, and after one that raised. -/
  | done (answer : Option Answer)
  /-- The parent of a fork. -/
  | writing (pid : Pid)
  /-- The pidfile was there. -/
  | reading (asked : Asked)
  | probing (asked : Asked) (pid : Int)
  | waiting (pid : Int)
  | killing (pid : Int)
  | unlinking (pid : Int)
  deriving DecidableEq

def Cmd.free : Cmd → Bool
  | .done _ => true
  | _ => false

/-- The processes, the pidfile and the commands that were started. -/
structure World where
  procs : Pid → Option Process
  pidfile : Option (List Char)
  cmds : Nat → Cmd

def Asked.no : Asked → Answer
  | .status => .notAlive
  | .stop => .notStopped

/-- What `os.kill` comes to. -/
inductive Killed
  /-- `OverflowError` -/
  | overflow
  /-- `ProcessLookupError` -/
  | noProcess
  /-- `PermissionError` -/
  | refused
  | sent (p : Pid)
  deriving DecidableEq

/-- `os.kill` of one process; a pid that is not positive stands for a group, and is left out. -/
def kill (procs : Pid → Option Process) (pid : Int) : Option Killed :=
  if pos : 0 < pid.toNat then
    if small : pid.toNat < 2 ^ 31 then
      match procs ⟨pid.toNat, pos, small⟩ with
      | none => some .noProcess
      | some process => some (if process.ours then .sent ⟨pid.toNat, pos, small⟩ else .refused)
    else some .overflow
  else none

/-- `int(pidfile.read_text().strip())`, with `none` for what the commands catch. -/
def World.readPid (w : World) : Option Int := w.pidfile.bind int

def World.goto (w : World) (k : Nat) (cmd : Cmd) : World :=
  { w with cmds := Function.update w.cmds k cmd }

def World.setProc (w : World) (p : Pid) (process : Option Process) : World :=
  { w with procs := Function.update w.procs p process }

/-! ## Steps -/

inductive Label
  /-- A process that is no daemon of this home gets a pid. -/
  | appear (p : Pid) (ours : Bool)
  | exit (p : Pid)
  /-- The fork of `_spawn_daemon_or_exit`. -/
  | fork (k : Nat) (p : Pid)
  | ask (k : Nat) (asked : Asked)
  /-- `late`: the deadline of `daemon-stop` has passed. -/
  | go (k : Nat) (late : Bool)

/-- The next step of the command `k`. -/
def advance (k : Nat) (late : Bool) (w : World) : Option World :=
  match w.cmds k with
  | .done _ => none
  | .writing p => some { w.goto k (.done (some (.daemonized p))) with pidfile := some p.str }
  | .reading asked =>
    match w.readPid with
    | none => some (w.goto k (.done (some asked.no)))
    | some pid => some (w.goto k (.probing asked pid))
  | .probing .status pid =>
    (kill w.procs pid).map fun
      | .overflow => w.goto k (.done none)
      | .noProcess => w.goto k (.done (some .notAlive))
      | .refused | .sent _ => w.goto k (.done (some (.alive pid)))
  | .probing .stop pid =>
    -- `SIGTERM`: when the process goes is its own affair.
    (kill w.procs pid).map fun
      | .overflow | .refused => w.goto k (.done none)
      | .noProcess => w.goto k (.unlinking pid)
      | .sent _ => w.goto k (.waiting pid)
  | .waiting pid =>
    if late then some (w.goto k (.killing pid))
    else (kill w.procs pid).map fun
      | .overflow | .refused => w.goto k (.done none)
      | .noProcess => w.goto k (.unlinking pid)
      | .sent _ => w
  | .killing pid =>
    (kill w.procs pid).map fun
      | .overflow | .refused => w.goto k (.done none)
      | .noProcess => w.goto k (.unlinking pid)
      | .sent p => (w.setProc p none).goto k (.unlinking pid)
  | .unlinking pid => some { w.goto k (.done (some (.stopped pid))) with pidfile := none }

def step (l : Label) (w : World) : Option World :=
  match l with
  | .appear p ours => if (w.procs p).isNone then some (w.setProc p (some ⟨false, ours⟩)) else none
  | .exit p => if (w.procs p).isSome then some (w.setProc p none) else none
  | .fork k p =>
    if (w.cmds k).free && (w.procs p).isNone then some ((w.setProc p (some ⟨true, true⟩)).goto k (.writing p))
    else none
  | .ask k asked =>
    if (w.cmds k).free then
      some (w.goto k (if w.pidfile.isSome then .reading asked else .done (some asked.no)))
    else none
  | .go k late => advance k late w

/-! ## One daemon, and the file names it -/

/-- A daemon with this pid is alive. -/
def World.Lives (w : World) (p : Pid) : Prop :=
  ∃ process, w.procs p = some process ∧ process.daemon = true

def World.NoDaemon (w : World) : Prop := ∀ p, ¬ w.Lives p

/-- No command is under way. -/
def World.Quiet (w : World) : Prop := ∀ k, (w.cmds k).free = true

/-- A daemon is started when none is alive and no command is under way, and no command comes before
its pid is written. -/
def Apart (w : World) : Label → Prop
  | .fork _ _ => w.Quiet ∧ w.NoDaemon
  | .ask _ _ => ∀ k p, w.cmds k ≠ .writing p
  | _ => True

/-- The pid that a command has read and acts on. -/
def Cmd.pid : Cmd → Option Int
  | .probing _ pid | .waiting pid | .killing pid => some pid
  | .done _ | .writing _ | .reading _ | .unlinking _ => none

structure Inv (w : World) : Prop where
  one : ∀ p q, w.Lives p → w.Lives q → p = q
  named : ∀ p, w.Lives p → w.readPid = some (p.val : Int) ∨ ∃ k, w.cmds k = .writing p
  alone : ∀ k p, w.cmds k = .writing p → ∀ j, j ≠ k → (w.cmds j).free = true
  writer : ∀ k p q, w.cmds k = .writing p → w.Lives q → q = p
  acting : ∀ k pid p, (w.cmds k).pid = some pid → w.Lives p → pid = p.val
  unlinking : ∀ k pid, w.cmds k = .unlinking pid → w.NoDaemon

variable {w w' : World} {k : Nat} {p : Pid} {pid : Int}

/-! ### What a signal finds -/

theorem kill_sent {procs : Pid → Option Process} (h : kill procs pid = some (.sent p)) :
    pid = p.val ∧ (procs p).isSome := by
  unfold kill at h
  split at h
  next pos =>
    split at h
    next small =>
      split at h
      · simp at h
      · next process hproc =>
        split at h
        · obtain rfl := Killed.sent.inj (Option.some.inj h)
          exact ⟨(Int.toNat_of_nonneg (by omega)).symm, by rw [hproc]; rfl⟩
        · simp at h
    · simp at h
  · simp at h

theorem kill_noProcess {procs : Pid → Option Process} (h : kill procs p.val = some .noProcess) :
    procs p = none := by
  have hp : kill procs p.val = match procs p with
      | none => some .noProcess
      | some process => some (if process.ours then .sent p else .refused) := by
    have pos : 0 < (p.val : Int).toNat := p.pos
    have small : (p.val : Int).toNat < 2 ^ 31 := p.small
    rw [kill, dif_pos pos, dif_pos small]
    rfl
  rw [hp] at h
  split at h
  · next hnone => exact hnone
  · split at h <;> simp at h

theorem pid_eq {p q : Pid} (h : (p.val : Int) = q.val) : p = q := by
  cases p
  cases q
  simpa using Int.ofNat.inj h

/-! ### Steps that change one command -/

theorem goto_cmds (cmd : Cmd) (j : Nat) : (w.goto k cmd).cmds j = if j = k then cmd else w.cmds j :=
  Function.update_apply w.cmds k cmd j

theorem Inv.busy_alone (h : Inv w) (hbusy : (w.cmds k).free = false) {j : Nat} (hne : j ≠ k) :
    w.cmds j ≠ .writing p := by
  intro hj
  have hfree := h.alone j p hj k hne.symm
  simp [hbusy] at hfree

theorem Inv.goto (h : Inv w) {cmd : Cmd} (hbefore : ∀ p, w.cmds k ≠ .writing p)
    (hafter : ∀ p, cmd ≠ .writing p)
    (hwriters : ∀ j p, j ≠ k → w.cmds j = .writing p → cmd.free = true)
    (hpid : ∀ pid p, cmd.pid = some pid → w.Lives p → pid = p.val)
    (hunlinking : ∀ pid, cmd = .unlinking pid → w.NoDaemon) : Inv (w.goto k cmd) := by
  have hwriting : ∀ j p, (w.goto k cmd).cmds j = .writing p → j ≠ k ∧ w.cmds j = .writing p := by
    intro j p hj
    rw [goto_cmds] at hj
    split at hj
    · exact absurd hj (hafter p)
    · next hne => exact ⟨hne, hj⟩
  refine ⟨h.one, fun p hp => ?_, fun j p hj i hi => ?_, fun j p q hj => h.writer j p q (hwriting j p hj).2,
    fun j pid p hj hp => ?_, fun j pid hj => ?_⟩
  · rcases h.named p hp with hread | ⟨j, hj⟩
    · exact .inl hread
    · have hne : j ≠ k := by rintro rfl; exact hbefore p hj
      exact .inr ⟨j, by rw [goto_cmds, if_neg hne]; exact hj⟩
  · obtain ⟨hne, hj⟩ := hwriting j p hj
    rw [goto_cmds]
    split
    · exact hwriters j p hne hj
    · exact h.alone j p hj i hi
  · rw [goto_cmds] at hj
    split at hj
    · exact hpid pid p hj hp
    · exact h.acting j pid p hj hp
  · rw [goto_cmds] at hj
    split at hj
    · exact hunlinking pid hj
    · exact h.unlinking j pid hj

theorem Inv.finish (h : Inv w) {answer : Option Answer} (hbefore : ∀ p, w.cmds k ≠ .writing p) :
    Inv (w.goto k (.done answer)) :=
  h.goto hbefore (by simp) (fun _ _ _ _ => rfl) (by simp [Cmd.pid]) (by simp)

/-! ### Steps that change the processes or the file -/

theorem Inv.fewer (h : Inv w) (hcmds : w'.cmds = w.cmds) (hfile : w'.pidfile = w.pidfile)
    (hlives : ∀ q, w'.Lives q → w.Lives q) : Inv w' := by
  refine ⟨fun p q hp hq => h.one p q (hlives p hp) (hlives q hq), fun p hp => ?_, fun j p hj => ?_,
    fun j p q hj hq => ?_, fun j pid p hj hp => ?_, fun j pid hj p hp => ?_⟩
  · rw [World.readPid, hfile, hcmds]
    exact h.named p (hlives p hp)
  · rw [hcmds] at hj ⊢
    exact h.alone j p hj
  · rw [hcmds] at hj
    exact h.writer j p q hj (hlives q hq)
  · rw [hcmds] at hj
    exact h.acting j pid p hj (hlives p hp)
  · rw [hcmds] at hj
    exact h.unlinking j pid hj p (hlives p hp)

theorem lives_setProc {process : Option Process}
    (hdaemon : ∀ pr, process = some pr → pr.daemon = false) {q : Pid}
    (hq : (w.setProc p process).Lives q) : q ≠ p ∧ w.Lives q := by
  obtain ⟨pr, hpr, hd⟩ := hq
  simp only [World.setProc, Function.update_apply] at hpr
  split at hpr
  · simp [hdaemon pr hpr] at hd
  · next hne => exact ⟨hne, pr, hpr, hd⟩

theorem Inv.setProc (h : Inv w) {process : Option Process}
    (hdaemon : ∀ pr, process = some pr → pr.daemon = false) :
    Inv (w.setProc p process) :=
  h.fewer rfl rfl fun _ hq => (lives_setProc hdaemon hq).2

theorem Inv.fork (hquiet : w.Quiet) (hnone : w.NoDaemon) :
    Inv ((w.setProc p (some ⟨true, true⟩)).goto k (.writing p)) := by
  -- The fork: no command but the parent is under way.
  have hlives : ∀ q, ((w.setProc p (some ⟨true, true⟩)).goto k (.writing p)).Lives q → q = p := by
    rintro q ⟨pr, hpr, hd⟩
    simp only [World.goto, World.setProc, Function.update_apply] at hpr
    split at hpr
    · assumption
    · exact absurd ⟨pr, hpr, hd⟩ (hnone q)
  have hbusy : ∀ j, j ≠ k → (((w.setProc p (some ⟨true, true⟩)).goto k (.writing p)).cmds j).free = true := by
    intro j hj
    rw [goto_cmds, if_neg hj]
    exact hquiet j
  have honly : ∀ j cmd, ((w.setProc p (some ⟨true, true⟩)).goto k (.writing p)).cmds j = cmd → cmd.free = false →
      j = k ∧ cmd = .writing p := by
    intro j cmd hj hfree
    by_cases hjk : j = k
    · rw [goto_cmds, if_pos hjk] at hj
      exact ⟨hjk, hj.symm⟩
    · rw [← hj, hbusy j hjk] at hfree
      simp at hfree
  refine ⟨fun q r hq hr => (hlives q hq).trans (hlives r hr).symm, fun q hq => ?_, fun j q hj i hi => ?_,
    fun j q r hj hr => ?_, fun j pid q hj hq => ?_, fun j pid hj => ?_⟩
  · exact .inr ⟨k, by rw [hlives q hq, goto_cmds, if_pos rfl]⟩
  · obtain ⟨rfl, -⟩ := honly j _ hj rfl
    exact hbusy i hi
  · obtain ⟨-, heq⟩ := honly j _ hj rfl
    rw [hlives r hr]
    exact (Cmd.writing.inj heq).symm
  · rw [goto_cmds] at hj
    split at hj
    · simp [Cmd.pid] at hj
    · have hfree := hquiet j
      change (w.cmds j).pid = some pid at hj
      cases hc : w.cmds j <;> simp [hc, Cmd.pid, Cmd.free] at hj hfree
  · obtain ⟨-, hcmd⟩ := honly j _ hj rfl
    simp at hcmd

theorem Inv.write (h : Inv w) (hk : w.cmds k = .writing p) {answer : Option Answer} :
    Inv { w.goto k (.done answer) with pidfile := some p.str } := by
  have hfree : ∀ j, ((w.goto k (.done answer)).cmds j).free = true := by
    intro j
    rw [goto_cmds]
    split
    · rfl
    · next hj => exact h.alone k p hk j hj
  have hbusy : ∀ j cmd, (w.goto k (.done answer)).cmds j = cmd → cmd.free = true :=
    fun j cmd hj => hj ▸ hfree j
  refine ⟨h.one, fun q hq => .inl ?_, fun j q hj => ?_, fun j q r hj => ?_, fun j pid q hj => ?_, fun j pid hj => ?_⟩
  · obtain rfl := h.writer k p q hk hq
    exact int_str q
  · simpa [Cmd.free] using hbusy j _ hj
  · simpa [Cmd.free] using hbusy j _ hj
  · have := hfree j
    change ((w.goto k (.done answer)).cmds j).pid = some pid at hj
    cases hc : (w.goto k (.done answer)).cmds j <;> simp [hc, Cmd.pid, Cmd.free] at hj this
  · simpa [Cmd.free] using hbusy j _ hj

theorem Inv.unlink (h : Inv w) (hk : w.cmds k = .unlinking pid) {answer : Option Answer} :
    Inv { w.goto k (.done answer) with pidfile := none } := by
  have hgoto : Inv (w.goto k (.done answer)) := h.finish (by simp [hk])
  exact ⟨hgoto.one, fun q hq => absurd hq (h.unlinking k pid hk q), hgoto.alone, hgoto.writer, hgoto.acting,
    hgoto.unlinking⟩

/-! ### One step -/

theorem Inv.noDaemon (h : Inv w) (hk : (w.cmds k).pid = some pid)
    (hkill : kill w.procs pid = some .noProcess) :
    w.NoDaemon := by
  -- Where a command has read its pid, a signal that finds no process shows that no daemon is alive.
  intro p hp
  obtain rfl := h.acting k pid p hk hp
  obtain ⟨pr, hpr, -⟩ := hp
  rw [kill_noProcess hkill] at hpr
  simp at hpr

theorem Inv.keep (h : Inv w) (hk : (w.cmds k).pid = some pid) {cmd : Cmd}
    (hpid : cmd.pid = some pid) :
    Inv (w.goto k cmd) := by
  have hbusy : (w.cmds k).free = false := by cases hc : w.cmds k <;> simp [hc, Cmd.pid] at hk <;> rfl
  refine h.goto ?_ ?_ (fun j q hj hw => absurd hw (h.busy_alone hbusy hj)) ?_ ?_
  · intro p hp
    simp [hp, Cmd.pid] at hk
  · rintro p rfl
    simp [Cmd.pid] at hpid
  · intro pid' p hpid' hp
    obtain rfl : pid = pid' := Option.some.inj (hpid.symm.trans hpid')
    exact h.acting k pid p hk hp
  · rintro pid' rfl
    simp [Cmd.pid] at hpid

theorem Inv.gone (h : Inv w) (hk : (w.cmds k).free = false) (hbefore : ∀ p, w.cmds k ≠ .writing p)
    (hnone : w.NoDaemon) : Inv (w.goto k (.unlinking pid)) :=
  h.goto hbefore (by simp) (fun _ _ hj hw => absurd hw (h.busy_alone hk hj)) (by simp [Cmd.pid]) fun _ _ => hnone

theorem Inv.advance (h : Inv w) {late : Bool} (hstep : advance k late w = some w') : Inv w' := by
  unfold Daemon.advance at hstep
  split at hstep
  · simp at hstep
  · next q hk =>
    -- The parent of a fork writes the pid.
    obtain rfl := Option.some.inj hstep
    exact h.write hk
  · next asked hk =>
    -- A command reads the pidfile.
    split at hstep
    · obtain rfl := Option.some.inj hstep
      exact h.finish (by simp [hk])
    · next pid hread =>
      obtain rfl := Option.some.inj hstep
      refine h.goto (by simp [hk]) (by simp) ?_ ?_ (by simp)
      · exact fun j q hj hw => absurd hw (h.busy_alone (by simp [hk, Cmd.free]) hj)
      · rintro pid' q hpid hq
        obtain rfl : pid = pid' := Option.some.inj hpid
        rcases h.named q hq with hname | ⟨j, hj⟩
        · exact Option.some.inj (hread.symm.trans hname)
        · have hjk : k ≠ j := by rintro rfl; simp [hk] at hj
          simpa [hk, Cmd.free] using h.alone j q hj k hjk
  · next pid hk =>
    obtain ⟨killed, -, rfl⟩ := Option.map_eq_some_iff.mp hstep
    split <;> exact h.finish (by simp [hk])
  · next pid hk =>
    obtain ⟨killed, hkill, rfl⟩ := Option.map_eq_some_iff.mp hstep
    have hpid : (w.cmds k).pid = some pid := by rw [hk]; rfl
    cases killed with
    | overflow | refused => exact h.finish (by simp [hk])
    | noProcess => exact h.gone (by simp [hk, Cmd.free]) (by simp [hk]) (h.noDaemon hpid hkill)
    | sent p => exact h.keep hpid rfl
  · next pid hk =>
    have hpid : (w.cmds k).pid = some pid := by rw [hk]; rfl
    split at hstep
    · obtain rfl := Option.some.inj hstep
      exact h.keep hpid rfl
    · obtain ⟨killed, hkill, rfl⟩ := Option.map_eq_some_iff.mp hstep
      cases killed with
      | overflow | refused => exact h.finish (by simp [hk])
      | noProcess => exact h.gone (by simp [hk, Cmd.free]) (by simp [hk]) (h.noDaemon hpid hkill)
      | sent p => exact h
  · next pid hk =>
    obtain ⟨killed, hkill, rfl⟩ := Option.map_eq_some_iff.mp hstep
    have hpid : (w.cmds k).pid = some pid := by rw [hk]; rfl
    cases killed with
    | overflow | refused => exact h.finish (by simp [hk])
    | noProcess => exact h.gone (by simp [hk, Cmd.free]) (by simp [hk]) (h.noDaemon hpid hkill)
    | sent p =>
      -- Nobody survives a `SIGKILL`.
      refine Inv.gone (h.setProc (by simp)) (by simp [World.setProc, hk, Cmd.free]) (by simp [World.setProc, hk]) ?_
      intro q hq
      obtain ⟨hne, hlives⟩ := lives_setProc (by simp) hq
      exact hne (pid_eq ((h.acting k pid q hpid hlives).symm.trans (kill_sent hkill).1))
  · next pid hk =>
    obtain rfl := Option.some.inj hstep
    exact h.unlink hk

theorem Inv.step {l : Label} (h : Inv w) (hapart : Apart w l)
    (hstep : step l w = some w') : Inv w' := by
  cases l with
  | appear p ours =>
    obtain ⟨-, ⟨⟩⟩ := Option.ite_none_right_eq_some.mp hstep
    exact h.setProc (by simp)
  | exit p =>
    obtain ⟨-, ⟨⟩⟩ := Option.ite_none_right_eq_some.mp hstep
    exact h.setProc (by simp)
  | fork k p =>
    obtain ⟨-, ⟨⟩⟩ := Option.ite_none_right_eq_some.mp hstep
    exact .fork hapart.1 hapart.2
  | ask k asked =>
    obtain ⟨-, ⟨⟩⟩ := Option.ite_none_right_eq_some.mp hstep
    split
    · exact h.goto (hapart k) (by simp) (fun j p _ hj => absurd hj (hapart j p)) (by simp [Cmd.pid]) (by simp)
    · exact h.finish (hapart k)
  | go k late => exact h.advance hstep

/-! ## What a command says and whom it signals -/

/-- The command that a step belongs to. -/
def Label.command : Label → Option Nat
  | .fork k _ | .ask k _ | .go k _ => some k
  | .appear _ _ | .exit _ => none

/-- What an answer has to say of the moment at which it is given. -/
def Answer.Correct (w : World) : Answer → Prop
  | .daemonized p => w.readPid = some (p.val : Int) ∧ ∀ q, w.Lives q → q = p
  | .alive pid => ∃ p : Pid, pid = p.val ∧ (w.procs p).isSome
  | .notAlive | .notStopped => w.NoDaemon
  | .stopped _ => w.NoDaemon ∧ w.pidfile = none

/-- What a command prints is so at that moment. -/
def Honest (taken : Step World Label) : Prop :=
  ∀ k answer, taken.label.command = some k → taken.after.cmds k = .done (some answer) → answer.Correct taken.after

/-- The process that the next step of `k` signals. -/
def World.target (w : World) (k : Nat) : Option Pid :=
  match w.cmds k with
  | .probing .stop pid | .killing pid =>
    match kill w.procs pid with
    | some (.sent p) => some p
    | _ => none
  | _ => none

/-- A process that is no daemon is hit only when no daemon is alive. -/
def Spared (taken : Step World Label) : Prop :=
  ∀ k late p, taken.label = .go k late → taken.before.target k = some p →
    taken.before.Lives p ∨ taken.before.NoDaemon

theorem target_spec (h : w.target k = some p) : (w.cmds k).pid = some (p.val : Int) := by
  unfold World.target at h
  split at h
  case h_3 => simp at h
  all_goals
    next pid hk =>
    split at h
    · next q hkill =>
      obtain rfl := Option.some.inj h
      rw [hk, ← (kill_sent hkill).1]
      rfl
    · simp at h

theorem Inv.spared (h : Inv w) {l : Label} : Spared ⟨w, l, w'⟩ := by
  intro k late p _ htarget
  by_cases hnone : w.NoDaemon
  · exact .inr hnone
  · obtain ⟨q, hq⟩ := not_forall_not.mp hnone
    have hpq : (p.val : Int) = q.val := h.acting k _ q (target_spec htarget) hq
    exact .inl (pid_eq hpq ▸ hq)

theorem Inv.unnamed (h : Inv w) (hread : w.readPid = none)
    (hwriters : ∀ j p, w.cmds j ≠ .writing p) : w.NoDaemon := by
  -- Where no pid can be read and no parent is about to write one, no daemon is alive.
  intro p hp
  rcases h.named p hp with hname | ⟨j, hj⟩
  · rw [hread] at hname
    simp at hname
  · exact hwriters j p hj

theorem kill_found {procs : Pid → Option Process} {killed : Killed}
    (h : kill procs pid = some killed) (hover : killed ≠ .overflow) (hnone : killed ≠ .noProcess) :
    ∃ p : Pid, pid = p.val ∧ (procs p).isSome := by
  unfold kill at h
  split at h
  next pos =>
    split at h
    next small =>
      split at h
      · exact absurd (Option.some.inj h).symm hnone
      · next process hproc =>
        exact ⟨⟨pid.toNat, pos, small⟩, (Int.toNat_of_nonneg (by omega)).symm, by rw [hproc]; rfl⟩
    · exact absurd (Option.some.inj h).symm hover
  · simp at h

theorem goto_done {cmd : Cmd} {answer : Answer} (h : (w.goto k cmd).cmds k = .done (some answer)) :
    cmd = .done (some answer) := by
  rwa [goto_cmds, if_pos rfl] at h

theorem Inv.honest_go (h : Inv w) {late : Bool} (hstep : Daemon.advance k late w = some w')
    {answer : Answer} (hdone : w'.cmds k = .done (some answer)) : answer.Correct w' := by
  unfold Daemon.advance at hstep
  split at hstep
  · simp at hstep
  · next p hk =>
    obtain rfl := Option.some.inj hstep
    obtain rfl := Option.some.inj (Cmd.done.inj (goto_done hdone))
    exact ⟨int_str p, fun q hq => h.writer k p q hk hq⟩
  · next asked hk =>
    -- No daemon is about to be named while a command reads.
    have hwriters : ∀ j p, w.cmds j ≠ .writing p := fun j p hj => by
      by_cases hjk : j = k
      · simp [← hjk, hj] at hk
      · exact h.busy_alone (by simp [hk, Cmd.free]) hjk hj
    split at hstep
    · next hread =>
      obtain rfl := Option.some.inj hstep
      obtain rfl := Option.some.inj (Cmd.done.inj (goto_done hdone))
      cases asked <;> exact h.unnamed hread hwriters
    · obtain rfl := Option.some.inj hstep
      simp [goto_cmds] at hdone
  · next pid hk =>
    obtain ⟨killed, hkill, rfl⟩ := Option.map_eq_some_iff.mp hstep
    have hpid : (w.cmds k).pid = some pid := by rw [hk]; rfl
    cases killed with
    | overflow => simp [goto_cmds] at hdone
    | noProcess =>
      obtain rfl := Option.some.inj (Cmd.done.inj (goto_done hdone))
      exact h.noDaemon hpid hkill
    | refused | sent p =>
      obtain rfl := Option.some.inj (Cmd.done.inj (goto_done hdone))
      exact kill_found hkill (by simp) (by simp)
  · next pid hk =>
    obtain ⟨killed, -, rfl⟩ := Option.map_eq_some_iff.mp hstep
    cases killed <;> simp [goto_cmds] at hdone
  · next pid hk =>
    split at hstep
    · obtain rfl := Option.some.inj hstep
      simp [goto_cmds] at hdone
    · obtain ⟨killed, -, rfl⟩ := Option.map_eq_some_iff.mp hstep
      cases killed <;> simp [goto_cmds, hk] at hdone
  · next pid hk =>
    obtain ⟨killed, -, rfl⟩ := Option.map_eq_some_iff.mp hstep
    cases killed <;> simp [goto_cmds] at hdone
  · next pid hk =>
    obtain rfl := Option.some.inj hstep
    obtain rfl := Option.some.inj (Cmd.done.inj (goto_done hdone))
    exact ⟨h.unlinking k pid hk, rfl⟩

theorem Inv.honest (h : Inv w) {l : Label} (hapart : Apart w l)
    (hstep : Daemon.step l w = some w') :
    Honest ⟨w, l, w'⟩ := by
  intro k answer hcommand hdone
  cases l with
  | appear | exit => simp [Label.command] at hcommand
  | fork j p =>
    obtain rfl := Option.some.inj hcommand
    obtain ⟨-, ⟨⟩⟩ := Option.ite_none_right_eq_some.mp hstep
    simp [goto_cmds] at hdone
  | ask j asked =>
    obtain rfl := Option.some.inj hcommand
    obtain ⟨-, ⟨⟩⟩ := Option.ite_none_right_eq_some.mp hstep
    have hcmd := goto_done hdone
    split at hcmd
    · simp at hcmd
    · next hfile =>
      obtain rfl := Option.some.inj (Cmd.done.inj hcmd)
      have hread : w.readPid = none := by
        simp [World.readPid, Option.not_isSome_iff_eq_none.mp hfile]
      cases asked <;> exact h.unnamed hread hapart
  | go j late =>
    obtain rfl := Option.some.inj hcommand
    exact h.honest_go hstep hdone

/-! ## Every run -/

theorem inv_start (hquiet : w.Quiet) (hnone : w.NoDaemon) : Inv w := by
  have hidle : ∀ k cmd, w.cmds k = cmd → cmd.free = true := fun k cmd hk => hk ▸ hquiet k
  refine ⟨fun p _ hp => absurd hp (hnone p), fun p hp => absurd hp (hnone p), fun k p hk => ?_,
    fun _ _ q _ hq => absurd hq (hnone q), fun _ _ p _ hp => absurd hp (hnone p), fun _ _ _ => hnone⟩
  simpa [Cmd.free] using hidle k _ hk

/-- At most one daemon is alive, and the pidfile names it, or the command that started it is about
to write its pid. -/
def Named (w : World) : Prop :=
  (∀ p q, w.Lives p → w.Lives q → p = q) ∧
    ∀ p, w.Lives p → w.readPid = some (p.val : Int) ∨ ∃ k, w.cmds k = .writing p

/-- **One daemon, always named.** Whatever the pidfile held and whoever was alive, when each daemon
is started with none alive and no command under way, and no command comes before its pid is
written. -/
theorem daemon_named (w : World) (labels : List Label) (hquiet : w.Quiet) (hnone : w.NoDaemon)
    (hapart : ∀ taken ∈ path step w labels, Apart taken.before taken.label) :
    ∀ taken ∈ path step w labels, Named taken.after := by
  intro taken htaken
  have hinv := path_invariant (fun w l w' (h : Inv w) (hl : Apart w l) hstep => h.step hl hstep) w labels
    (inv_start hquiet hnone) hapart taken htaken
  exact ⟨hinv.one, hinv.named⟩

/-- **No command lies.** In such a run `daemon-stop` leaves no daemon behind whichever way it
answers, a status "not alive" means that none is, and a process that is no daemon is signalled only
when no daemon is alive. -/
theorem commands_honest (w : World) (labels : List Label) (hquiet : w.Quiet) (hnone : w.NoDaemon)
    (hapart : ∀ taken ∈ path step w labels, Apart taken.before taken.label) :
    ∀ taken ∈ path step w labels, Honest taken ∧ Spared taken :=
  path_steps (fun _ _ _ h hl hstep => h.step hl hstep)
    (fun _ _ _ h hl hstep => ⟨h.honest hl hstep, h.spared⟩) w labels (inv_start hquiet hnone) hapart

/-! ## A daemon that ignores `SIGTERM` -/

/-- A daemon with pid 7 crashed and left its pidfile. -/
def leftover : World := ⟨fun _ => none, some ['7'], fun _ => .done none⟩

/-- The pid is used again, and two commands look for the daemon while a third stops it. -/
def stubborn : List Label :=
  [.fork 0 seven, .go 0 false, .ask 1 .stop, .ask 2 .status, .go 1 false, .go 1 false, .go 2 false, .go 1 true,
    .go 1 false, .go 2 false, .go 1 false]

theorem quiet_leftover : leftover.Quiet := fun _ => rfl

theorem noDaemon_leftover : leftover.NoDaemon := by
  rintro p ⟨process, hp, -⟩
  simp [leftover] at hp

theorem apart_stubborn : ∀ taken ∈ path step leftover stubborn, Apart taken.before taken.label := by
  have hcons := @forall_path_cons World Label step fun taken => Apart taken.before taken.label
  refine (hcons rfl).mpr ⟨⟨quiet_leftover, noDaemon_leftover⟩, (hcons rfl).mpr ⟨trivial, ?_⟩⟩
  refine (hcons rfl).mpr ⟨fun k p => ?_, (hcons rfl).mpr ⟨fun k p => ?_, ?_⟩⟩
  · simp only [goto_cmds]
    split <;> simp [leftover, World.setProc, *]
  · simp only [goto_cmds]
    split_ifs <;> simp [leftover, World.setProc, *]
  iterate 7 refine (hcons rfl).mpr ⟨trivial, ?_⟩
  simp [path]

theorem stubborn_named : (final step leftover stubborn).cmds 1 = .done (some (.stopped 7)) ∧
    ∀ taken ∈ path step leftover stubborn, Named taken.after :=
  ⟨rfl, daemon_named leftover stubborn quiet_leftover noDaemon_leftover apart_stubborn⟩

theorem stubborn_honest : (final step leftover stubborn).cmds 2 = .done (some .notAlive) ∧
    ∀ taken ∈ path step leftover stubborn, Honest taken ∧ Spared taken :=
  ⟨rfl, commands_honest leftover stubborn quiet_leftover noDaemon_leftover apart_stubborn⟩

end Swarm.Cli.Daemon
