import Moon.Lib.Map
import Moon.TokenExpander

/-!
# Env files

The lines of an env file, and the references to variables in their values.
-/

namespace Moon

open Moon.Lib

abbrev Vars := Map Text (Option Text)

/-- What one of the two patterns captures. -/
structure Reference where
  namespacing : Text
  name : Text
  flag : Text := []
  fallback : Text := []
deriving DecidableEq

def isNameChar (c : Char) : Bool := c.isUpper || c.isDigit || c = '_'

/-- The namespaces in the order of the patterns, with their length. The last character is any but a
line break. -/
def namespaces : List (Text × Nat) :=
  [("E:".toList, 2), ("env::".toList, 5), ("env:".toList, 4), ("env".toList, 4), ("ENV".toList, 4)]

/-- Takes the first namespace that leaves a name behind it, or none. -/
def matchName (text : Text) : Option (Text × Text) :=
  let lengths := (namespaces.filter (fun (start, length) =>
    start.isPrefixOf text && (text[length - 1]?).any (· ≠ '\n'))).map (·.2) ++ [0]
  (lengths.map (fun length => (text.take length, (text.drop length).takeWhile isNameChar))).find?
    (fun found => !found.2.isEmpty)

/-- `ENV_VAR` after its dollar sign, and how much it covers. -/
def matchPlain (text : Text) : Option (Reference × Nat) := do
  let (space, name) ← matchName text
  return ({ namespacing := space, name }, space.length + name.length)

def flags : List Text :=
  ["!".toList, "?".toList, ":-".toList, ":+".toList, "-".toList, "+".toList, ":".toList]

/-- `ENV_VAR_BRACKETS` after its dollar sign, and how much it covers. -/
def matchBrackets : Text → Option (Reference × Nat)
  | '{' :: text => do
    let (space, name) ← matchName text
    let behind := text.drop (space.length + name.length)
    guard ('}' ∈ behind)
    let inside := behind.takeWhile (· ≠ '}')
    let flag := (flags.find? (·.isPrefixOf inside)).getD []
    return ({ namespacing := space, name, flag, fallback := inside.drop flag.length },
      space.length + name.length + inside.length + 2)
  | _ => none

/-- `replace_all`, where the counter is what the last match still covers. -/
def replaceMatches (pattern : Text → Option (Reference × Nat)) (replace : Reference → Text) :
    Nat → Text → Text
  | _, [] => []
  | covered + 1, _ :: text => replaceMatches pattern replace covered text
  | 0, c :: text =>
    match (if c = '$' then pattern text else none) with
    | some (reference, covered) =>
      replace reference ++ replaceMatches pattern replace covered text
    | none => c :: replaceMatches pattern replace 0 text

structure EnvSubstitutor where
  globalVars : Text → Option Text := fun _ => none
  localVars : Vars := ∅

namespace EnvSubstitutor

variable (substitutor : EnvSubstitutor) (parentKey : Option Text)

/-- A variable that refers to itself is taken from the globals. -/
def getReplacementValue (key : Text) : Text :=
  match (if parentKey = some key then none else (substitutor.localVars.lookup key).join) with
  | some value => value
  | none => (substitutor.globalVars key).getD []

def getTokenValue (space key : Text) : Text :=
  if space = "env::".toList then '$' :: '{' :: (space ++ key ++ ['}']) else '$' :: (space ++ key)

def expand (reference : Reference) : Text :=
  let value := substitutor.getReplacementValue parentKey reference.name
  if reference.flag = ['!'] then getTokenValue reference.namespacing reference.name
  else if reference.flag = ['?'] then
    if value = [] then getTokenValue reference.namespacing reference.name else value
  else if [":".toList, ":-".toList, "-".toList].contains reference.flag then
    if value = [] then reference.fallback else value
  else if [":+".toList, "+".toList].contains reference.flag then
    if value = [] then value else reference.fallback
  else value

def doSubstitute (value : Text) : Text :=
  if '$' ∈ value then
    replaceMatches matchBrackets (substitutor.expand parentKey) 0
      (replaceMatches matchPlain (substitutor.expand parentKey) 0 value)
  else value

end EnvSubstitutor

/-- The classes of characters that the parser asks for. -/
structure CharClasses where
  isWhitespace : Char → Bool
  isAlphabetic : Char → Bool
  isAlphanumeric : Char → Bool
  space : isWhitespace ' ' = true
  underscore : isWhitespace '_' = false
  marks : ∀ c ∈ ['#', '=', '"', '\''], isWhitespace c = false ∧ isAlphanumeric c = false
  letters : ∀ c, isAlphanumeric c = true → isWhitespace c = false

inductive QuoteStyle
  | single
  | double
  | unquoted
deriving DecidableEq

inductive DotEnvError
  | missingAssignment
  | emptyKey
  | invalidKeyPrefix (key : Text)
  | invalidKey (key : Text)
deriving DecidableEq

def rfind (pattern : Text) : Text → Option Nat
  | [] => none
  | c :: text =>
    match rfind pattern text with
    | some index => some (index + 1)
    | none => if pattern.isPrefixOf (c :: text) then some 0 else none

def quoteIndices (quote : Char) (value : Text) : Option (Nat × Nat) := do
  let l ← value.findIdx? (· = quote)
  let r ← rfind [quote] value
  guard (l ≠ r)
  return (l, r)

def getQuoteIndices (value : Text) : Option (Nat × Nat) :=
  quoteIndices '\'' value <|> quoteIndices '"' value

def escaped : Char → Text
  | 'n' => ['\n']
  | 'r' => ['\r']
  | 't' => ['\t']
  | '\\' => ['\\']
  | '"' => ['"']
  | '\'' => ['\'']
  | c => ['\\', c]

def unescape : Text → Text
  | c :: next :: text =>
    if c = '\\' then escaped next ++ unescape text else c :: unescape (next :: text)
  | text => text

def stripComment (line : Text) : Text :=
  match rfind [' ', '#'] line with
  | none => line
  | some index =>
    if (getQuoteIndices line).all (fun (_, r) => r < index) then line.take index else line

namespace CharClasses

variable (chars : CharClasses)

def trimEnd (text : Text) : Text := (text.reverse.dropWhile chars.isWhitespace).reverse

def trim (text : Text) : Text := chars.trimEnd (text.dropWhile chars.isWhitespace)

def parseKey (key : Text) : Except DotEnvError Text :=
  match key with
  | [] => .error .emptyKey
  | first :: _ =>
    if !chars.isAlphabetic first && first ≠ '_' then .error (.invalidKeyPrefix key)
    else if key.all (fun c => chars.isAlphanumeric c || c = '_') then .ok key
    else .error (.invalidKey key)

def parseValue (value : Text) : Text × QuoteStyle :=
  let value := chars.trim value
  let quoted (quote : Char) : Bool :=
    value.length ≥ 2 && value.head? = some quote && value.getLast? = some quote
  if quoted '\'' then (value.tail.dropLast, .single)
  else if quoted '"' then (unescape value.tail.dropLast, .double)
  else (value, .unquoted)

def parseLine (line : Text) : Except DotEnvError (Option (Text × Text × QuoteStyle)) := do
  let trimmed := chars.trim line
  if trimmed = [] ∨ trimmed.head? = some '#' then return none
  let line := stripComment (if "export ".toList.isPrefixOf trimmed then trimmed.drop 7 else trimmed)
  if '=' ∈ line then
    let key ← chars.parseKey (chars.trim (line.takeWhile (· ≠ '=')))
    return some (key, chars.parseValue (chars.trim (line.dropWhile (· ≠ '=')).tail))
  else throw .missingAssignment

end CharClasses

structure DotEnv where
  chars : CharClasses
  globalVars : Text → Option Text
  localVars : Vars

namespace DotEnv

variable (loader : DotEnv)

/-- The variables of the file so far, without those that the loader was given. -/
def substitutor (env : Vars) : EnvSubstitutor where
  globalVars := loader.globalVars
  localVars := env

def loadLine (vars : Vars) (line : Text × Nat) : Except (Nat × DotEnvError) Vars :=
  match loader.chars.parseLine line.1 with
  | .error error => .error (line.2, error)
  | .ok none => .ok vars
  | .ok (some (key, value, quote)) =>
    .ok (vars.insert key (
      if value = "null".toList ∨ value = "nil".toList then none
      else if quote = .single then some value
      else some ((loader.substitutor vars).doSubstitute (some key) value)))

def load (lines : List Text) : Except (Nat × DotEnvError) Vars :=
  (lines.zipIdx 1).foldlM loader.loadLine ∅

/-- The env files of a task, each loaded with the variables of those before it. -/
def loadFiles (chars : CharClasses) (envBag : Text → Option Text) (taskEnv moonEnv : Vars)
    (files : List (List Text)) : Except (Nat × DotEnvError) Vars :=
  files.foldlM (fun dotEnv file => do
    let loader : DotEnv := ⟨chars, envBag, moonEnv ∪ taskEnv ∪ dotEnv⟩
    return (← loader.load file) ∪ dotEnv) ∅

end DotEnv

end Moon
