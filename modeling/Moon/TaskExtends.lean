import Moon.Task

/-! # Extending tasks -/

namespace Moon

structure TaskConfig (S : Type) where
  extendsTask : Option Id := none
  settings : S

structure ConfigChain (S : Type) where
  config : TaskConfig S
  inherited : Bool

structure UnknownExtendsSource where
  sourceId : Id
  targetId : Id
deriving DecidableEq

structure ConfiguredTasks (S : Type) where
  localTasks : Id → Option (TaskConfig S) := fun _ => none
  globalTasks : Id → List (TaskConfig S) := fun _ => []

section Extract

variable {S : Type}

/-- A computation that may not return at all, or with an error. -/
abbrev ExtractM := ExceptT UnknownExtendsSource Option

def ConfiguredTasks.configs (tasks : ConfiguredTasks S) (taskId : Id) : List (ConfigChain S) :=
  (tasks.globalTasks taskId).map (⟨·, true⟩) ++ (tasks.localTasks taskId).toList.map (⟨·, false⟩)

def extract (extractConfig : Id → ExtractM (List (ConfigChain S))) (taskId : Id)
    (stack : List (ConfigChain S)) (entry : ConfigChain S) : ExtractM (List (ConfigChain S)) := do
  match entry.config.extendsTask with
  | none => return stack ++ [entry]
  | some extendTaskId =>
    let extendedStack ← extractConfig extendTaskId
    if extendedStack.isEmpty then
      throw ⟨taskId, extendTaskId⟩
    else
      return stack ++ extendedStack ++ [entry]

def extractConfig (tasks : ConfiguredTasks S) : Nat → Id → ExtractM (List (ConfigChain S))
  | 0, _ => .mk none
  | fuel + 1, taskId =>
    (tasks.configs taskId).foldlM (extract (extractConfig tasks fuel) taskId) []

/-- `get_config_inherit_chain`, for as long as it may take. -/
def getConfigInheritChain (tasks : ConfiguredTasks S) (fuel : Nat) (id : Id) :
    Option (Except UnknownExtendsSource (List (ConfigChain S))) :=
  (extractConfig tasks fuel id).run

end Extract

end Moon
