import Moon.Lib.Map
import Moon.Task

/-! # Templates that extend each other -/

namespace Moon

open Moon.Lib

/-- What a template is loaded with, for variables of type `V`. -/
structure Template (V : Type) where
  id : Id
  extendIds : List Id := []
  configVariables : Map String V := ∅
  templates : List (Template V) := []

inductive CodegenError
  | invalidId (id : String)
  | missingTemplate (id : Id)
deriving DecidableEq

/-- `Id::clean` is not part of the repository. -/
structure CodeGenerator (V : Type) where
  clean : String → Except CodegenError Id
  templates : List (Id × Template V)

variable {V : Type}

/-- A variable that both have is not overwritten. -/
def Template.extendTemplate (self template : Template V) : Template V :=
  { self with
    configVariables := self.configVariables.merge (fun held config => held.getD config)
      template.configVariables
    templates := self.templates ++ [{ template with configVariables := ∅ }] }

def CodeGenerator.find (self : CodeGenerator V) (id : String) :
    Except CodegenError (Template V) := do
  let id ← self.clean id
  match self.templates.lookup id with
  | some template => return template
  | none => throw (.missingTemplate id)

/-- The call does not return if there is no fuel left. -/
def CodeGenerator.getTemplate (self : CodeGenerator V) :
    Nat → String → ExceptT CodegenError Option (Template V)
  | 0, _ => .mk none
  | fuel + 1, id => do
    let template ← .mk (some (self.find id))
    let extended ← template.extendIds.mapM (self.getTemplate fuel)
    return extended.foldl Template.extendTemplate template

end Moon
