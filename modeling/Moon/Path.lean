import Mathlib.Data.List.Basic

/-!
# Relative and absolute paths

Workspace relative paths are kept as the raw text split at `/`, because validation looks at the
raw text while the file system only sees the resolved components.
-/

namespace Moon

/-- A component of a path, as `relative_path` and `std::path` split it. -/
inductive Component
  | curDir
  | parentDir
  | normal (name : String)
deriving DecidableEq

def Component.asStr : Component → String
  | .curDir => "."
  | .parentDir => ".."
  | .normal name => name

/-- The segment between two separators, where an empty one is no component at all. -/
def Component.ofSegment (segment : String) : Option Component :=
  if segment = "" then none
  else if segment = "." then some .curDir
  else if segment = ".." then some .parentDir
  else some (.normal segment)

/-- `WorkspaceRelativePath`: the raw text of the path, split at every `/`. -/
structure WorkspaceRelativePath where
  segments : List String
deriving DecidableEq

namespace WorkspaceRelativePath

def asStr (path : WorkspaceRelativePath) : String := String.intercalate "/" path.segments

def components (path : WorkspaceRelativePath) : List Component :=
  path.segments.filterMap Component.ofSegment

/-- Equality of relative paths is equality of their components. -/
def eq (left right : WorkspaceRelativePath) : Bool := left.components == right.components

/-- `starts_with` compares components and leaves `..` unresolved. -/
def startsWith (path base : WorkspaceRelativePath) : Bool :=
  base.components.isPrefixOf path.components

/-- `Path::new(..).has_root()`: on Unix, the text starts with the separator. -/
def hasRoot (path : WorkspaceRelativePath) : Bool :=
  match path.segments with
  | "" :: _ :: _ => true
  | _ => false

end WorkspaceRelativePath

/-- A Unix `PathBuf`: whether it starts at the root, and its components after that. -/
structure PathBuf where
  root : Bool
  components : List Component
deriving DecidableEq

namespace PathBuf

/-- Removes the last component. The root has no parent and stays. -/
def pop (path : PathBuf) : PathBuf := { path with components := path.components.dropLast }

def push (path : PathBuf) (component : Component) : PathBuf :=
  { path with components := path.components ++ [component] }

def startsWith (path base : PathBuf) : Bool :=
  path.root == base.root && base.components.isPrefixOf path.components

end PathBuf

def PathBuf.rawText (path : PathBuf) : WorkspaceRelativePath :=
  ⟨if path.root then "" :: path.components.map Component.asStr
    else path.components.map Component.asStr⟩

structure WorkspaceRoot where
  path : PathBuf
  absolute : path.root = true

/-- `to_logical_path` walks the components from `relative_to`, a `..` removing the last one. -/
def WorkspaceRelativePath.toLogicalPath (path : WorkspaceRelativePath)
    (relativeTo : PathBuf) : PathBuf :=
  path.components.foldl (fun p component =>
    match component with
    | .curDir => p
    | .parentDir => p.pop
    | .normal name => p.push (.normal name)) relativeTo

structure CleanState where
  cleaned : PathBuf
  leadingParentDots : Nat
  componentCount : Nat

def cleanComponent (state : CleanState) (component : Component) : CleanState :=
  match component with
  | .curDir => state
  | .parentDir =>
    if state.componentCount = 1 ∧ state.cleaned.root then
      state
    else if state.componentCount = state.leadingParentDots then
      { cleaned := state.cleaned.push .parentDir
        leadingParentDots := state.leadingParentDots + 1
        componentCount := state.componentCount + 1 }
    else
      { state with
        cleaned := state.cleaned.pop
        componentCount := state.componentCount - 1 }
  | .normal name =>
    { state with
      cleaned := state.cleaned.push (.normal name)
      componentCount := state.componentCount + 1 }

/-- The root directory is counted as a component of its own. -/
def cleanComponents (path : PathBuf) : PathBuf :=
  let start : CleanState :=
    { cleaned := ⟨path.root, []⟩
      leadingParentDots := 0
      componentCount := if path.root then 1 else 0 }
  let result := path.components.foldl cleanComponent start
  if result.componentCount = 0 then result.cleaned.push .curDir else result.cleaned

def pathsAreEqual (left right : PathBuf) : Bool := cleanComponents left = cleanComponents right

end Moon
