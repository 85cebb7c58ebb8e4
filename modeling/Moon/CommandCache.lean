import Mathlib.Data.List.Perm.Basic
import Moon.Manifest
import Moon.ProcessCommand

/-!
# Outputs of commands

Outputs are kept by a hash of the command for as long as moon runs, unless the cache drops them to
make room. Progress that was redrawn can be collapsed.
-/

namespace Moon

inductive ChildExit
  | completed (code : Option Int)
  | interrupted
  | killed
  | terminated
deriving DecidableEq

structure CommandOutput where
  exit : ChildExit
  stderr : List UInt8 := []
  stdout : List UInt8 := []
deriving DecidableEq

def CommandOutput.success (output : CommandOutput) : Bool := output.exit == .completed (some 0)

/-- The message of a nonzero exit is made from the output. -/
inductive ProcessError
  | capture (bin error : String)
  | exitNonZeroWithOutput (bin : String) (output : CommandOutput)
deriving DecidableEq

/-- A call that feeds the hasher. -/
inductive HasherWrite
  | usize (value : Nat)
  | u8 (value : Nat)
  | bytes (value : String)
deriving DecidableEq

namespace HasherWrite

def text (value : String) : List HasherWrite := [.usize value.utf8ByteSize, .bytes value]

def env (entry : String × EnvBehavior) : List HasherWrite :=
  text entry.1 ++
    match entry.2 with
    | .set value => .u8 1 :: text value
    | .setIfMissing value => .u8 2 :: text value
    | .unset => [.u8 0]

end HasherWrite

def CommandExecutable.text : CommandExecutable → String
  | .binary bin => bin.value
  | .script text => text

/-- What runs a command, and the hash function. -/
structure ProcessHost where
  execute : ProcessCommand → Except String CommandOutput
  executeContinuous : ProcessCommand → Except ProcessError CommandOutput
  hash : List HasherWrite → UInt64
  isTestEnv : Bool := false
  isDaemonEnv : Bool := false

/-- `producer` is not in the source: it is the command that was run. -/
structure CachedOutput where
  producer : ProcessCommand
  output : CommandOutput

abbrev OutputCache := UInt64 → Option CachedOutput

namespace ProcessCommand

variable (host : ProcessHost) (command : ProcessCommand)

def sortedEnv : List (String × EnvBehavior) :=
  command.env.mergeSort (fun left right => left.1 ≤ right.1)

def texts : List String :=
  command.exe.text :: (command.args.map (·.value) ++ (command.cwd.toList ++ command.input))

def hasherWrites : List HasherWrite :=
  command.sortedEnv.flatMap HasherWrite.env ++ command.texts.flatMap HasherWrite.text

def getCacheKey : UInt64 := host.hash command.hasherWrites

def shouldCacheOutput : Bool := command.cache && !host.isTestEnv && !host.isDaemonEnv

def getBinName : String :=
  match command.exe with
  | .binary bin => bin.value
  | .script script => String.ofList (script.toList.takeWhile (· ≠ ' '))

def handleNonzeroStatus (output : CommandOutput) : Except ProcessError PUnit :=
  if command.errorOnNonzero && !output.success then
    .error (.exitNonZeroWithOutput command.getBinName output)
  else .ok ⟨⟩

def internalExecCaptureOutput : Except ProcessError CommandOutput := do
  let output ← (host.execute command).mapError (.capture command.getBinName)
  command.handleNonzeroStatus output
  return output

def execCaptureOutput (cache : OutputCache) : Except ProcessError CommandOutput × OutputCache :=
  if command.continuousPipe then (host.executeContinuous command, cache)
  else if !command.shouldCacheOutput host then (command.internalExecCaptureOutput host, cache)
  else
    match cache (command.getCacheKey host) with
    | some entry => (.ok entry.output, cache)
    | none =>
      match command.internalExecCaptureOutput host with
      | .ok output =>
        (.ok output, Function.update cache (command.getCacheKey host) (some ⟨command, output⟩))
      | .error error => (.error error, cache)

end ProcessCommand

/-- The cache is bounded, so entries go at any time. -/
inductive RegistryEvent
  | exec (command : ProcessCommand)
  | evict (key : UInt64)

def OutputCache.step (host : ProcessHost) (cache : OutputCache) : RegistryEvent → OutputCache
  | .exec command => (command.execCaptureOutput host cache).2
  | .evict key => Function.update cache key none

/-- `split_inclusive`: each line keeps its line feed, and no line is empty. -/
def splitLines : Bytes → List Bytes
  | [] => []
  | byte :: rest =>
    if byte = 10 then [byte] :: splitLines rest
    else
      match splitLines rest with
      | [] => [[byte]]
      | line :: lines => (byte :: line) :: lines

def rposition (byte : UInt8) : Bytes → Option Nat
  | [] => none
  | first :: rest =>
    match rposition byte rest with
    | some index => some (index + 1)
    | none => if first = byte then some 0 else none

def lastFrame (content : Bytes) : Bytes :=
  match rposition 13 content with
  | some index => content.drop (index + 1)
  | none => content

def collapseLine (line : Bytes) : Bytes :=
  match line.reverse with
  | 10 :: 13 :: content => lastFrame content.reverse ++ [13, 10]
  | 10 :: content => lastFrame content.reverse ++ [10]
  | _ => lastFrame line

def collapseRedrawFrames (data : Bytes) : Bytes :=
  if 13 ∈ data then (splitLines data).flatMap collapseLine else data

end Moon
