import Mathlib.Logic.Function.Basic
import Swarm.Perpetual.Run

/-!
# The heartbeat of a loop

The loop writes its status to a file. `MetaSupervisorMonitor` of `meta_supervisor.py` reads the
file and tells from it whether the loop is silent.
-/

namespace Swarm.Perpetual.Heartbeat

open Supervisor

/-! ## Numbers as text -/

/-- `repr` and `float` of the interpreter. -/
structure Floats where
  repr : ℚ → String
  parse : String → Option Num

variable (fl : Floats)

def Floats.json (q : ℚ) : Json := .float (fl.repr q)

/-! ## What the loop writes -/

/-- `PerpetualStats.to_dict` -/
def statsDict (stats : Stats) (uptimeS : ℚ) : List (String × Json) :=
  [("ticks", .int stats.ticks), ("dispatched", .int stats.dispatched),
    ("generated", .int stats.generated), ("idle_ticks", .int stats.idleTicks),
    ("transient_recoveries", .int stats.transientRecoveries), ("uptime_s", fl.json uptimeS),
    ("last_tick_at", (stats.lastTickAt.map fl.json).getD .null)]

def statusDict (s : Supervisor.Status) : List (String × Json) :=
  [("teammate", .str s.teammate), ("turn", .int s.turn), ("cost_so_far_usd", fl.json s.costSoFarUsd),
    ("cost_cap_usd", fl.json s.costCapUsd),
    ("kanban", .obj [("pending", .int s.pending), ("in_progress", .int s.inProgress),
      ("done", .int s.done), ("failed", .int s.failed)]),
    ("heads", .ofStrs s.heads)]

/-- The dict of `status()`, which puts the times under `perpetual`. -/
def checkpointDict (c : Checkpoint) : List (String × Json) :=
  statusDict fl c.base ++ [("perpetual", .obj (statsDict fl c.stats c.uptimeS)), ("name", .str c.name)]

/-- The files below the home, by path. -/
abbrev Files := String → Option Text

/-- The file that the monitor looks at. -/
def statusPath (stateDir name : String) : String := stateDir ++ "/" ++ name ++ ".status.json"

def writeCheckpoint (cfg : Config) (c : Checkpoint) (files : Files) : Files :=
  match cfg.statusPath with
  | none => files
  | some path => Function.update files path (some (.json (.obj (checkpointDict fl c))))

/-- `_factory` of the `perpetual` command. -/
def factory (stateDir : String) (count : Nat) (maxTicks : Option Int) (i : Nat) : Config :=
  let name := if count = 1 then "perpetual" else "perpetual-" ++ toString i
  { name := name
    maxTicks := maxTicks
    statusPath := some (statusPath stateDir name)
    backoff := ⟨1, 2, 60, true⟩
    maxAttempts := 6 }

/-! ## What the monitor reads -/

structure Monitor where
  stateDir : String
  heartbeatTimeoutS : ℚ

structure SupervisorHealthEvent where
  name : String
  lastHeartbeat : Option Num
  now : ℚ
  heartbeatTimeoutS : ℚ
  isSilent : Bool

/-- `float(raw)`, where a ValueError is caught and a TypeError is not. -/
def toFloat (raw : Json) : Except PyError (Option Num) :=
  match raw with
  | .null => .ok none
  | .bool b => .ok (some (.finite (if b then 1 else 0)))
  | .int n => .ok (some (.finite n))
  | .float t | .str t => .ok (fl.parse t)
  | .arr _ | .obj _ =>
    .error (.typeError "float() argument must be a string or a real number")

/-- `_read_heartbeat` -/
def readHeartbeat (m : Monitor) (files : Files) (name : String) : Except PyError (Option Num) :=
  match files (statusPath m.stateDir name) with
  | none => .ok none
  | some text =>
    match text.loads with
    | .error _ => .ok none
    | .ok (.obj data) =>
      toFloat fl (((Json.get data "last_tick").or (Json.get data "heartbeat")).or
        (Json.get data "updated_at"))
    | .ok _ => .error (.attributeError "object has no attribute 'get'")

def healthEvent (m : Monitor) (name : String) (last : Option Num) (now : ℚ) :
    SupervisorHealthEvent where
  name := name
  lastHeartbeat := last
  now := now
  heartbeatTimeoutS := m.heartbeatTimeoutS
  isSilent := last.all fun last => (Num.finite m.heartbeatTimeoutS).le ((Num.finite now).sub last)

/-- With names to check; the default is to look for the status files. -/
def checkSupervisorHealth (m : Monitor) (files : Files) (supervisorNames : List String) (now : ℚ) :
    Except PyError (List SupervisorHealthEvent) :=
  supervisorNames.mapM fun name => do
    return healthEvent m name (← readHeartbeat fl m files name) now

/-! ## The two do not meet -/

/-- The loop that wrote `c` is reported alive, with its last tick as the last heartbeat. -/
def Agrees (m : Monitor) (cfg : Config) (c : Checkpoint) (files : Files) (now : ℚ) : Prop :=
  ∃ events, checkSupervisorHealth fl m (writeCheckpoint fl cfg c files) [cfg.name] now = .ok events ∧
    ∃ e ∈ events, e.name = cfg.name ∧ e.isSilent = false ∧
      e.lastHeartbeat = c.stats.lastTickAt.map Num.finite

theorem checkpoint_keys (c : Checkpoint) (key : String)
    (hkey : key ∈ ["last_tick", "heartbeat", "updated_at"]) :
    Json.get (checkpointDict fl c) key = .null := by
  simp only [List.mem_cons, List.not_mem_nil, or_false] at hkey
  rcases hkey with rfl | rfl | rfl <;> rfl

theorem readHeartbeat_checkpoint (m : Monitor) (cfg : Config) (c : Checkpoint) (files : Files)
    (hpath : cfg.statusPath = some (statusPath m.stateDir cfg.name)) :
    readHeartbeat fl m (writeCheckpoint fl cfg c files) cfg.name = .ok none := by
  unfold readHeartbeat writeCheckpoint
  rw [hpath]
  simp [Text.loads, checkpoint_keys, Json.or, Json.truthy, toFloat]

theorem not_agrees (m : Monitor) (cfg : Config) (c : Checkpoint) (files : Files) (now : ℚ)
    (hpath : cfg.statusPath = some (statusPath m.stateDir cfg.name)) :
    ¬ Agrees fl m cfg c files now := by
  rintro ⟨events, hevents, e, he, -, halive, -⟩
  have hread := readHeartbeat_checkpoint fl m cfg c files hpath
  simp only [checkSupervisorHealth, List.mapM_cons, List.mapM_nil, hread, bind, Except.bind, pure,
    Except.pure, Except.ok.injEq] at hevents
  subst hevents
  obtain rfl := List.mem_singleton.mp he
  cases halive

/-- **The monitor never sees a heartbeat.** Whatever a loop of the CLI writes and whenever the
monitor reads it, the loop is silent. -/
theorem never_agrees (fl : Floats) (m : Monitor) (count : Nat) (maxTicks : Option Int) (i : Nat)
    (c : Checkpoint) (files : Files) (now : ℚ) :
    ¬ Agrees fl m (factory m.stateDir count maxTicks i) c files now :=
  not_agrees fl m _ c files now rfl

/-! ## One tick -/

def decimals : Floats := ⟨fixed 1, fun _ => none⟩

/-- A loop of the CLI that ticks once, at the time 1000. -/
def once : Config := factory "state" 1 (some 1) 0

def atThousand : Env := { steady (.ok ⟨.done, 0, none, none, none⟩) with now := fun _ => 1000 }

theorem once_reported_silent :
    ∃ why s c, run sup solo once atThousand 2 (begin oneTask) = some (why, s) ∧
      s.checkpoints.getLast? = some c ∧ c.stats.lastTickAt = some 1000 ∧
      ¬ Agrees decimals ⟨"state", 300⟩ once c (fun _ => none) 1010 := by
  have hticked : (run sup solo once atThousand 2 (begin oneTask)).any fun out =>
      out.2.checkpoints.getLast?.any fun c => c.stats.lastTickAt = some 1000 := by
    decide +kernel
  obtain ⟨⟨why, s⟩, hrun, hlast⟩ := (Option.any_eq_true _ _).mp hticked
  obtain ⟨c, hc, htick⟩ := (Option.any_eq_true _ _).mp hlast
  exact ⟨why, s, c, hrun, hc, of_decide_eq_true htick, not_agrees decimals ⟨"state", 300⟩ once c _ 1010 rfl⟩

end Swarm.Perpetual.Heartbeat
