import Mathlib.Data.List.Infix

/-!
# Running commands

`GlobalEnvBag` collects the variables that are set and removed while moon runs, on top of those
that the process was started with. `Command` is what moon runs in a child process.
-/

namespace Moon

abbrev Environment := String → Option String

structure GlobalEnvBag where
  inherited : Environment
  added : Environment := fun _ => none
  removed : String → Bool := fun _ => false

structure EnvState where
  process : Environment
  bag : GlobalEnvBag

/-- Variables that are set in the process as well. -/
def isPropagated (key : String) : Bool :=
  "PROTO".toList.isPrefixOf key.toList || "STARBASE".toList.isPrefixOf key.toList ||
    "WARPGATE".toList.isPrefixOf key.toList || decide ("COLOR".toList <:+: key.toList) ||
    key == "PATH" || key == "MOON_VERSION"

namespace EnvState

/-- `GlobalEnvBag::instance`, for a process that was started with this environment. -/
def init (environment : Environment) : EnvState :=
  { process := environment, bag := { inherited := environment } }

variable (state : EnvState)

def has (key : String) : Bool :=
  (state.bag.inherited key).isSome || (state.bag.added key).isSome

/-- A variable that is in the process only is taken over into the bag. -/
def get (key : String) : Option String × EnvState :=
  match (state.bag.added key).or (state.bag.inherited key) with
  | some value => (some value, state)
  | none =>
    match state.process key with
    | some value =>
      (some value, { state with bag := { state.bag with
        inherited := Function.update state.bag.inherited key (some value) } })
    | none => (none, state)

def set (key value : String) : EnvState :=
  { process :=
      if isPropagated key then Function.update state.process key (some value) else state.process
    bag := { state.bag with added := Function.update state.bag.added key (some value) } }

def remove (key : String) : EnvState :=
  { state with bag :=
      { inherited := Function.update state.bag.inherited key none
        added := Function.update state.bag.added key none
        removed := Function.update state.bag.removed key true } }

/-- The values that `list` visits for a variable, in order. -/
def list (key : String) : List String :=
  (state.bag.inherited key).toList ++ (state.bag.added key).toList

end EnvState

inductive EnvCall
  | set (key value : String)
  | remove (key : String)
deriving DecidableEq

namespace EnvCall

def key : EnvCall → String
  | set key _ => key
  | remove key => key

def apply (state : EnvState) : EnvCall → EnvState
  | set key value => state.set key value
  | remove key => state.remove key

end EnvCall

def EnvState.run (state : EnvState) (calls : List EnvCall) : EnvState :=
  calls.foldl EnvCall.apply state

inductive EnvBehavior
  | set (value : String)
  | setIfMissing (value : String)
  | unset
deriving DecidableEq

structure CommandArg where
  quotedValue : Option String := none
  value : String
deriving DecidableEq

inductive CommandExecutable
  | binary (bin : CommandArg)
  | script (script : String)
deriving DecidableEq

def CommandExecutable.requiresShell : CommandExecutable → Bool
  | binary _ => false
  | script _ => true

inductive ShellType
  | bash
  | other (name : String)
deriving DecidableEq

/-- A command. `env` is a map: there is one entry for each variable. -/
structure ProcessCommand where
  args : List CommandArg := []
  cache : Bool := false
  continuousPipe : Bool := false
  cwd : Option String := none
  env : List (String × EnvBehavior) := []
  env_nodup : (env.map (·.1)).Nodup := by simp
  exe : CommandExecutable
  errorOnNonzero : Bool := true
  input : List String := []
  paths : List String := []
  shell : Option ShellType

structure CommandHost where
  defaultShell : ShellType
  splitPaths : String → List String
  joinPaths : List String → Except String String

namespace ProcessCommand

variable (host : CommandHost) (command : ProcessCommand)

def containsEnv (key : String) : Bool := command.env.any (fun entry => entry.1 == key)

def wrappingShell : Option ShellType :=
  if command.shell.isSome || command.exe.requiresShell then
    some (command.shell.getD host.defaultShell)
  else none

variable (state : EnvState)

/-- What the process has, without what bash would run before the command. -/
def startEnvironment : Environment :=
  if command.wrappingShell host = some .bash ∧ !command.containsEnv "BASH_ENV" then
    Function.update state.process "BASH_ENV" none
  else state.process

/-- Added variables come first, removed ones after them. -/
def bagEnvironment : Environment := fun key =>
  if state.bag.removed key then none
  else (state.bag.added key).or (command.startEnvironment host state key)

def applyEnv (environment : Environment) (entry : String × EnvBehavior) :
    Environment :=
  match entry.2 with
  | .set value => Function.update environment entry.1 (some value)
  | .setIfMissing value =>
    if state.has entry.1 then environment
    else Function.update environment entry.1 (some value)
  | .unset => Function.update environment entry.1 none

/-- Explicit variables, and the working directory. -/
def explicitEnvironment : Environment :=
  let environment := command.env.foldl (applyEnv state) (command.bagEnvironment host state)
  match command.cwd with
  | some cwd => Function.update environment "PWD" (some cwd)
  | none => environment

/-- The environment that `create_sync_command` gives to the child process. -/
def childEnvironment : Except String Environment := do
  let environment := command.explicitEnvironment host state
  if !command.containsEnv "PATH" && !command.paths.isEmpty then
    let inheritedPaths := ((state.process "PATH").map host.splitPaths).getD []
    let path ← host.joinPaths (command.paths ++ inheritedPaths)
    return Function.update environment "PATH" (some path)
  else
    return environment

end ProcessCommand

end Moon
