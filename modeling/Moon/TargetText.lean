import Mathlib.Algebra.GroupWithZero.Nat
import Mathlib.Data.List.DropRight
import Moon.Task

/-!
# Targets as text

A `Target` keeps the joined text, and the index of its separator as a `u8`. The state of a target
is kept in a directory that is named after its parts.
-/

namespace Moon

/-- The ids and the characters (`ID_CHARS`, `ID_SYMBOLS`) of `starbase_id`. -/
structure IdRules where
  isId : List Char → Bool
  isChar : Char → Bool
  no_colon : isChar ':' = false
  no_hash : ∀ id, isId ('#' :: id) = false

inductive ProjectKind
  | all
  | deps
  | depsOf (scope : TargetDependencyScope)
  | id
  | ownSelf
  | tag
deriving DecidableEq

inductive TaskKind
  | id
  | tag
deriving DecidableEq

structure TargetText where
  id : List Char
  project : ProjectKind
  task : TaskKind
  index : Nat
deriving DecidableEq

def utf8Len (text : List Char) : Nat := (text.map Char.utf8Size).sum

/-- Slices a string at a byte, which panics inside of a character and past the end. -/
def splitAtByte : List Char → Nat → Option (List Char × List Char)
  | text, 0 => some ([], text)
  | [], _ + 1 => none
  | c :: text, bytes => if c.utf8Size ≤ bytes then
      (splitAtByte text (bytes - c.utf8Size)).map (fun parts => (c :: parts.1, parts.2))
    else none

/-- What the accessors make of the text before the separator. -/
def ProjectKind.text (kind : ProjectKind) (project : List Char) : List Char :=
  match kind with
  | .depsOf _ => project.dropWhile (· == '^')
  | .id => project
  | .tag => project.dropWhile (· == '#')
  | _ => []

/-- A task is a tag if it starts with `#`. -/
def taskScope : List Char → TaskKind × List Char
  | '#' :: tag => (.tag, tag)
  | id => (.id, id)

namespace TargetText

def projectWords : List (List Char × ProjectKind) :=
  [([], .all), (['^'], .deps), ("^build".toList, .depsOf .build),
    ("^dev".toList, .depsOf .development), ("^development".toList, .depsOf .development),
    ("^peer".toList, .depsOf .peer), ("^prod".toList, .depsOf .production),
    ("^production".toList, .depsOf .production), (['~'], .ownSelf)]

variable (rules : IdRules)

def parseProject (value : List Char) : Option ProjectKind :=
  match projectWords.find? (·.1 = value), value with
  | some word, _ => some word.2
  | none, '#' :: tag => if rules.isId tag then some .tag else none
  | none, id => if rules.isId id then some .id else none

def parseTask (value : List Char) : Option TaskKind :=
  if rules.isId (taskScope value).2 then some (taskScope value).1 else none

def new (project task : List Char) : Option TargetText := do
  return {
    index := utf8Len project % 256
    project := ← parseProject rules project
    task := ← parseTask rules task
    id := project ++ ':' :: task }

def newSelf (task : List Char) : Option TargetText := do
  return {
    index := 1, project := .ownSelf, task := ← parseTask rules task, id := '~' :: ':' :: task }

/-- The part of `TARGET_PATTERN` before the separator. -/
def isProject (text : List Char) : Bool :=
  text ∈ projectWords.map (·.1) || text.head?.any (fun c => c.isAlpha || c ∈ ['@', '#', '_']) &&
    text.tail.all rules.isChar

/-- The part of `TARGET_PATTERN` after the separator. -/
def isTask (text : List Char) : Bool :=
  text ≠ [] && text.all rules.isChar ||
    text.head? = some '#' && text.tail ≠ [] && text.tail.all rules.isChar

/-- That `:` alone is too wild is not told apart, since it does not match the pattern either. -/
def parse (text : List Char) : Option TargetText :=
  if ':' ∉ text then newSelf rules text
  else
    let project := text.takeWhile (· != ':')
    let task := (text.dropWhile (· != ':')).tail
    if isProject rules project && isTask rules task then new rules project task else none

variable (target : TargetText)

def getProjectScope : Option (ProjectKind × List Char) :=
  (splitAtByte target.id target.index).map (fun parts =>
    (target.project, target.project.text parts.1))

def getTaskScope : Option (TaskKind × List Char) :=
  (splitAtByte target.id (target.index + 1)).map (fun parts => taskScope parts.2)

end TargetText

def encodeComponent (value : List Char) : List Char :=
  let output := value.filterMap (fun c =>
    if c = '@' ∨ c = '*' then none else if c = '/' ∨ c = ':' then some '-' else some c)
  (output.dropWhile (· ∈ ['-', '.'])).rdropWhile (· ∈ ['-', '.'])

/-- The directory of a target, below that of all states. Joining an empty name adds nothing. -/
def stateDir (project : ProjectKind × List Char) (task : TaskKind × List Char) : List (List Char) :=
  let name := match task.1 with
    | .id => task.2
    | .tag => "tag-".toList ++ task.2
  let dir := match project.1 with
    | .id => encodeComponent project.2
    | .tag => "tag-".toList ++ encodeComponent project.2
    | _ => encodeComponent ['_']
  [dir, encodeComponent name].filter (· ≠ [])

def getTargetDir (target : TargetText) : Option (List (List Char)) := do
  let task ← target.getTaskScope
  let project ← target.getProjectScope
  return stateDir project task

end Moon
