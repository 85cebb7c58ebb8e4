import Mathlib.Data.List.Range

/-!
# Starting and stopping the daemon

The daemon of a workspace is the process that holds its lock, and it records its pid in a file.
-/

namespace Moon

abbrev Pid := Nat

inductive StartPhase
  | checking
  | locking
  | rechecking
  | spawning
  | waiting
deriving DecidableEq

/-- Where `stop_daemon` stands, with the pid of the state that it has read. -/
inductive StopPhase
  | checking
  | reading (running : Bool)
  | locking (info : Option Pid)
  /-- Waiting for the lock of the daemon, for a second time after a kill. -/
  | waiting (info : Option Pid) (retry : Bool)
  | killing (pid : Pid)
  | cleaning
deriving DecidableEq

/-- Where `start_daemon_server` stands. -/
inductive ServerPhase
  | starting
  | owning
  | serving
  | stopping
deriving DecidableEq

/-- What a process does. `owner` is not in the source: it is the daemon that held the lock and
had recorded itself when the state was read. -/
inductive ProcessRole
  | idle
  | start (phase : StartPhase)
  | stop (phase : StopPhase) (owner : Option Nat)
  | server (phase : ServerPhase)
deriving DecidableEq

structure OsProcess where
  pid : Pid
  role : ProcessRole
deriving DecidableEq

/-- The processes that are alive, by the order in which they were created. A pid may be given
out again. -/
structure DaemonWorld where
  processes : Nat → Option OsProcess := fun _ => none
  born : Nat := 0
  daemonLock : Option Nat := none
  spawnLock : Option Nat := none
  stateFile : Option Pid := none

/-- Steps of all processes that use the daemon. -/
inductive DaemonEvent
  | spawn (pid : Pid)
  /-- The process returns or crashes. -/
  | exit (id : Nat)
  | startDaemon (id : Nat)
  | stopDaemon (id : Nat)
  /-- `is_running`, which may also fail to connect. -/
  | check (id : Nat) (running : Bool)
  | readState (id : Nat)
  | acquireSpawnLock (id : Nat)
  | spawnLockTimeout (id : Nat)
  | spawnServer (id : Nat) (pid : Pid)
  | ready (id : Nat)
  | tryOwn (id : Nat)
  | writeState (id : Nat)
  | cleanup (id : Nat)
  | acquireLock (id : Nat)
  | lockTimeout (id : Nat)
  /-- The system may refuse to kill a process of another user. -/
  | kill (id : Nat) (permitted : Bool)

namespace DaemonWorld

variable (world : DaemonWorld) (id : Nat)

def roleOf : Option ProcessRole := (world.processes id).map (·.role)

def processWith (pid : Pid) : Option Nat :=
  (List.range world.born).find? (fun id => (world.processes id).any (fun process =>
    process.pid == pid))

/-- The daemon that is recorded in the state file. -/
def recordedOwner : Option Nat :=
  world.daemonLock.filter (fun id => world.roleOf id == some (.server .serving))

def create (pid : Pid) (role : ProcessRole) : DaemonWorld :=
  { world with
    processes := Function.update world.processes world.born (some ⟨pid, role⟩)
    born := world.born + 1 }

def setRole (role : ProcessRole) : DaemonWorld :=
  { world with
    processes := Function.update world.processes id
      ((world.processes id).map (fun process => { process with role := role })) }

/-- The locks of a process are released when their guards are dropped, or when it ends. -/
def release : DaemonWorld :=
  { world with
    daemonLock := world.daemonLock.filter (· ≠ id)
    spawnLock := world.spawnLock.filter (· ≠ id) }

def terminate : DaemonWorld :=
  { world.release id with processes := Function.update world.processes id none }

def finish : DaemonWorld := (world.setRole id .idle).release id

def check (running : Bool) : Option DaemonWorld :=
  if running && world.recordedOwner.isNone then none
  else
    match world.roleOf id with
    | some (.start .checking) =>
      some (world.setRole id (if running then .idle else .start .locking))
    | some (.start .rechecking) =>
      some (if running then world.finish id else world.setRole id (.start .spawning))
    | some (.stop .checking _) => some (world.setRole id (.stop (.reading running) none))
    | _ => none

def readState : Option DaemonWorld :=
  match world.roleOf id with
  | some (.stop (.reading running) _) =>
    if !running && world.stateFile.isNone then some (world.setRole id .idle)
    else some (world.setRole id (.stop (.locking world.stateFile) world.recordedOwner))
  | _ => none

/-- Stopping goes on whether or not it gets the spawn lock. A running daemon is asked to shut down,
which it may do anyway. -/
def afterSpawnLock (acquired : Bool) : Option DaemonWorld :=
  match world.roleOf id with
  | some (.start .locking) =>
    some (world.setRole id (.start (if acquired then .rechecking else .waiting)))
  | some (.stop (.locking info) owner) =>
    some (world.setRole id (.stop (.waiting info false) owner))
  | _ => none

def lockTimeout : Option DaemonWorld :=
  match world.roleOf id with
  | some (.stop (.waiting (some pid) false) owner) =>
    some (world.setRole id (.stop (.killing pid) owner))
  | some (.stop (.waiting none false) _) =>
    some (world.setRole id (.stop (.waiting none true) none))
  | some (.stop (.waiting _ true) _) => some (world.finish id)
  | _ => none

def kill (permitted : Bool) : Option DaemonWorld :=
  match world.roleOf id with
  | some (.stop (.killing pid) _) =>
    let waiting := world.setRole id (.stop (.waiting (some pid) true) none)
    match world.processWith pid with
    | some target => some (if permitted then waiting.terminate target else world.finish id)
    | none => some waiting
  | _ => none

def step : DaemonEvent → Option DaemonWorld
  | .spawn pid => if (world.processWith pid).isSome then none else some (world.create pid .idle)
  | .exit id => if (world.processes id).isSome then some (world.terminate id) else none
  | .startDaemon id =>
    if world.roleOf id = some .idle then some (world.setRole id (.start .checking)) else none
  | .stopDaemon id =>
    if world.roleOf id = some .idle then some (world.setRole id (.stop .checking none)) else none
  | .check id running => world.check id running
  | .readState id => world.readState id
  | .acquireSpawnLock id => do
    let locked ← world.afterSpawnLock id true
    if world.spawnLock = none then return { locked with spawnLock := some id } else none
  | .spawnLockTimeout id =>
    if world.spawnLock = none then none else world.afterSpawnLock id false
  | .spawnServer id pid =>
    if world.roleOf id = some (.start .spawning) ∧ world.processWith pid = none then
      some ((world.setRole id (.start .waiting)).create pid (.server .starting))
    else none
  | .ready id =>
    if world.roleOf id = some (.start .waiting) then some (world.finish id) else none
  | .tryOwn id =>
    if world.roleOf id = some (.server .starting) then
      if world.daemonLock = none then
        some { world.setRole id (.server .owning) with daemonLock := some id }
      else some (world.terminate id)
    else none
  | .writeState id =>
    match world.processes id with
    | some ⟨pid, .server .owning⟩ =>
      some { world.setRole id (.server .serving) with stateFile := some pid }
    | _ => none
  | .cleanup id =>
    match world.roleOf id with
    | some (.server .serving) =>
      some { world.setRole id (.server .stopping) with stateFile := none }
    | some (.stop .cleaning _) => some { world.finish id with stateFile := none }
    | _ => none
  | .acquireLock id =>
    match world.roleOf id with
    | some (.stop (.waiting _ _) _) =>
      if world.daemonLock = none then
        some { world.setRole id (.stop .cleaning none) with daemonLock := some id }
      else none
    | _ => none
  | .lockTimeout id => if world.daemonLock = none then none else world.lockTimeout id
  | .kill id permitted => world.kill id permitted

end DaemonWorld

end Moon
