import Moon.ContentHash

/-! # Changed files from the output of git -/

namespace Moon

open Moon.Lib

inductive ChangedStatus
  | added
  | all
  | deleted
  | modified
  | staged
  | unstaged
  | untracked
deriving DecidableEq

abbrev ChangedFiles := Map PathBuf (List ChangedStatus)

def statusPattern : List Char := ['M', 'T', 'A', 'D', 'R', 'C', 'U', '?', '!', ' ']

def diffPattern : List Char := ['A', 'D', 'M', 'T', 'U', 'X']

def codeStatuses (area : ChangedStatus) : Char → List ChangedStatus
  | 'A' | 'C' => [.added, area]
  | 'D' => [.deleted, area]
  | 'M' | 'R' | 'T' => [.modified, area]
  | 'U' => [.unstaged]
  | _ => []

def recordStatuses (x y : Char) : List ChangedStatus :=
  codeStatuses .staged x ++ if y = '?' then [.untracked] else codeStatuses .unstaged y

def renamedStatuses (x : Char) : List ChangedStatus :=
  [.deleted, if x = 'R' then .staged else .unstaged]

/-- Both readers take the tokens that a NUL ends, of the text that `output_to_string` makes of the
bytes. -/
def readOutput (read : ChangedFiles → List (List Char) → ChangedFiles) (output : List Char) :
    ChangedFiles :=
  if output = [] then ∅ else read ∅ (output.splitOn '\x00')

variable (workDir : PathBuf)

/-- A status takes the token after it as its path. -/
def readDiff : ChangedFiles → List (List Char) → ChangedFiles
  | files, [] => files
  | files, [x] :: tokens =>
    if x ∈ diffPattern then
      match tokens with
      | [] => files
      | path :: tokens =>
        readDiff (if path = [] then files
          else files.insert (workDir.joinText path) (codeStatuses .staged x)) tokens
    else readDiff files tokens
  | files, _ :: tokens => readDiff files tokens

def execDiff : List Char → ChangedFiles := readOutput (readDiff workDir)

/-- A rename or a copy takes the token after it as its original path. -/
def readStatus : ChangedFiles → List (List Char) → ChangedFiles
  | files, [] => files
  | files, (x :: y :: ' ' :: path) :: tokens =>
    if x ∈ statusPattern ∧ y ∈ statusPattern then
      let file := workDir.joinText path
      if x = 'R' ∨ x = 'C' ∨ y = 'R' ∨ y = 'C' then
        match tokens with
        | [] => files.insert file (recordStatuses x y)
        | orig :: tokens =>
          let files := if orig ≠ [] ∧ (x = 'R' ∨ y = 'R') then
              files.insert (workDir.joinText orig) (renamedStatuses x)
            else files
          readStatus (files.insert file (recordStatuses x y)) tokens
      else readStatus (files.insert file (recordStatuses x y)) tokens
    else readStatus files tokens
  | files, _ :: tokens => readStatus files tokens

def execStatus : List Char → ChangedFiles := readOutput (readStatus workDir)

end Moon
