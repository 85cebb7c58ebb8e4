import Moon.GitTree

/-!
# Records of git

The output of git as records, each of which says by its codes what happened to its path in the
index and in the work tree.
-/

namespace Moon.Proofs

open List Moon.Lib

/-- What git says of a path. -/
inductive GitCode
  | unmodified
  | modified
  | typeChanged
  | added
  | deleted
  | renamed
  | copied
  | unmerged
  | untracked
  | ignored
  | unknown
deriving DecidableEq

namespace GitCode

def letter : GitCode → Char
  | .unmodified => ' '
  | .modified => 'M'
  | .typeChanged => 'T'
  | .added => 'A'
  | .deleted => 'D'
  | .renamed => 'R'
  | .copied => 'C'
  | .unmerged => 'U'
  | .untracked => '?'
  | .ignored => '!'
  | .unknown => 'X'

/-- The statuses of a path by its code in the index. -/
def inIndex : GitCode → List ChangedStatus
  | .added | .copied => [.added, .staged]
  | .modified | .renamed | .typeChanged => [.modified, .staged]
  | .deleted => [.deleted, .staged]
  | .unmerged => [.unstaged]
  | .unmodified | .untracked | .ignored | .unknown => []

/-- The statuses of a path by its code in the work tree. -/
def inWorkTree : GitCode → List ChangedStatus
  | .added | .copied => [.added, .unstaged]
  | .modified | .renamed | .typeChanged => [.modified, .unstaged]
  | .deleted => [.deleted, .unstaged]
  | .unmerged => [.unstaged]
  | .untracked => [.untracked]
  | .unmodified | .ignored | .unknown => []

/-- The codes of a diff without renames. -/
def inDiff : List GitCode := [.added, .deleted, .modified, .typeChanged, .unmerged, .unknown]

end GitCode

def IsPathToken (path : List Char) : Prop := path ≠ [] ∧ '\x00' ∉ path

/-- A record of `git diff --name-status -z`. -/
structure DiffRecord where
  x : GitCode
  path : List Char
  code : x ∈ GitCode.inDiff
  isPath : IsPathToken path

/-- A record of `git status --porcelain -z`: the codes in the index and in the work tree, and the
original path of a rename or a copy. -/
structure StatusRecord where
  x : GitCode
  y : GitCode
  path : List Char
  orig : Option (List Char)
  codes : x ≠ .unknown ∧ y ≠ .unknown
  moved : orig.isSome ↔ x = .renamed ∨ x = .copied ∨ y = .renamed ∨ y = .copied
  arePaths : ∀ p ∈ path :: orig.toList, IsPathToken p

/-- A path with its statuses. -/
abbrev Entry := PathBuf × List ChangedStatus

/-- Tokens as git writes them, each with a NUL after it. -/
def terminated (tokens : List (List Char)) : List Char := tokens.flatMap (· ++ ['\x00'])

variable (workDir : PathBuf) (d : DiffRecord) (r : StatusRecord)

def DiffRecord.tokens : List (List Char) := [[d.x.letter], d.path]

def DiffRecord.entries : List Entry := [(workDir.joinText d.path, d.x.inIndex)]

def StatusRecord.tokens : List (List Char) :=
  (r.x.letter :: r.y.letter :: ' ' :: r.path) :: r.orig.toList

/-- The original path is deleted by a rename only, where the rename is. -/
def StatusRecord.entries : List Entry :=
  (if r.x = .renamed then
      r.orig.toList.map (fun orig => (workDir.joinText orig, [.deleted, .staged]))
    else if r.y = .renamed then
      r.orig.toList.map (fun orig => (workDir.joinText orig, [.deleted, .unstaged]))
    else []) ++
    [(workDir.joinText r.path, r.x.inIndex ++ r.y.inWorkTree)]

def inserted (files : ChangedFiles) (entries : List Entry) : ChangedFiles :=
  entries.foldl (fun m e => m.insert e.1 e.2) files

/-- A reader takes the tokens of a record as its entries. -/
structure Reads (tokens : List (List Char)) (entries : List Entry)
    (read : ChangedFiles → List (List Char) → ChangedFiles) : Prop where
  step : ∀ files rest, read files (tokens ++ rest) = read (inserted files entries) rest
  noNul : ∀ token ∈ tokens, '\x00' ∉ token

section

variable {x y : GitCode}

lemma letter_mem_statusPattern (h : x ≠ .unknown) : x.letter ∈ statusPattern := by
  cases x with
  | unknown => exact absurd rfl h
  | _ => decide

lemma letter_injective : Function.Injective GitCode.letter := by
  intro x y h
  cases x <;> cases y <;> first | rfl | exact absurd h (by decide)

lemma recordStatuses_letter : recordStatuses x.letter y.letter = x.inIndex ++ y.inWorkTree := by
  cases x <;> cases y <;> rfl

end

lemma DiffRecord.reads : Reads d.tokens (d.entries workDir) (readDiff workDir) where
  step files rest := by
    have hc : d.x.letter ∈ diffPattern ∧ codeStatuses .staged d.x.letter = d.x.inIndex := by
      have h := d.code
      cases hx : d.x <;> rw [hx] at h <;>
        first | exact ⟨by decide, rfl⟩ | exact absurd h (by decide)
    simp [tokens, readDiff, hc, d.isPath.1, inserted, entries]
  noNul := by
    have hx : '\x00' ≠ d.x.letter := by cases d.x <;> decide
    simpa [tokens, hx] using d.isPath.2

lemma StatusRecord.reads : Reads r.tokens (r.entries workDir) (readStatus workDir) where
  step files rest := by
    have hm := r.moved
    have hx := letter_mem_statusPattern r.codes.1
    have hy := letter_mem_statusPattern r.codes.2
    have hr (x : GitCode) : x.letter = 'R' ↔ x = .renamed :=
      letter_injective.eq_iff (b := .renamed)
    have hc (x : GitCode) : x.letter = 'C' ↔ x = .copied := letter_injective.eq_iff (b := .copied)
    have hR : GitCode.renamed.letter ∈ statusPattern := by decide
    cases ho : r.orig with
    | none =>
      simp only [ho, Option.isSome_none, Bool.false_eq_true, false_iff, not_or] at hm
      simp [tokens, readStatus, hx, hy, ho, hm, hr, hc, inserted, entries, recordStatuses_letter]
    | some orig =>
      simp only [ho, Option.isSome_some, true_iff] at hm
      have hp : orig ≠ [] := (r.arePaths orig (by simp [ho])).1
      by_cases hxr : r.x = .renamed
      · simp [tokens, readStatus, hR, hy, ho, hr, inserted, entries, hp, hxr,
          recordStatuses_letter, renamedStatuses]
      · by_cases hyr : r.y = .renamed
        · simp [tokens, readStatus, hx, hR, ho, hr, inserted, entries, hp, hxr, hyr,
            recordStatuses_letter, renamedStatuses]
        · have hcp : r.x = .copied ∨ r.y = .copied := by simpa [hxr, hyr] using hm
          simp [tokens, readStatus, hx, hy, ho, hcp, hr, hc, inserted, entries, hxr, hyr,
            recordStatuses_letter]
  noNul := by
    have hn (x : GitCode) : '\x00' ≠ x.letter := by cases x <;> decide
    obtain ⟨hp, ho⟩ := forall_mem_cons.mp r.arePaths
    refine forall_mem_cons.mpr ⟨?_, fun t ht => (ho t ht).2⟩
    simpa [hn] using hp.2

variable {R : Type} {rs : List R} {tokens : R → List (List Char)} {entries : R → List Entry}
  {read : ChangedFiles → List (List Char) → ChangedFiles}

lemma splitOn_terminated {tokens : List (List Char)} (h : ∀ t ∈ tokens, '\x00' ∉ t) :
    (terminated tokens).splitOn '\x00' = tokens ++ [[]] := by
  induction tokens with
  | nil => rfl
  | cons t tokens ih =>
    obtain ⟨ht, hn⟩ := forall_mem_cons.mp h
    have hs := splitOn_append_cons_self_of_not_mem ht (terminated tokens)
    rw [ih hn] at hs
    simpa [terminated] using hs

lemma readOutput_terminated (h : ∀ r, Reads (tokens r) (entries r) read)
    (hend : ∀ files, read files [[]] = files) (rs : List R) :
    readOutput read (terminated (rs.flatMap tokens)) = inserted ∅ (rs.flatMap entries) := by
  have hr (files : ChangedFiles) :
      read files (rs.flatMap tokens ++ [[]]) = inserted files (rs.flatMap entries) := by
    induction rs generalizing files with
    | nil => exact hend files
    | cons r rs ih =>
      rw [flatMap_cons, append_assoc, (h r).step, ih, flatMap_cons]
      exact (foldl_append ..).symm
  rw [← hr, ← splitOn_terminated (by simpa using fun t r _ => (h r).noNul t), readOutput]
  split_ifs with h
  · rw [h]
    exact (hend ∅).symm
  · rfl

lemma lookup_inserted {entries : List Entry} (h : (entries.map Prod.fst).Nodup) (p : PathBuf)
    (s : List ChangedStatus) : (inserted ∅ entries).lookup p = some s ↔ (p, s) ∈ entries := by
  refine (Map.lookup_foldl_insert (fun x hx y hy hk =>
    congrArg Prod.snd (inj_on_of_nodup_map h hx hy hk))).trans ⟨?_, fun hm => ⟨_, hm, rfl, rfl⟩⟩
  rintro ⟨e, he, rfl, rfl⟩
  exact he

/-- Records with distinct paths are read as they were written. -/
theorem git_records_are_decoded (workDir : PathBuf) (rs : List StatusRecord)
    (ds : List DiffRecord) (hr : ((rs.flatMap (·.entries workDir)).map Prod.fst).Nodup)
    (hd : ((ds.flatMap (·.entries workDir)).map Prod.fst).Nodup) :
    (∀ p s, (execStatus workDir (terminated (rs.flatMap (·.tokens)))).lookup p = some s ↔
      (p, s) ∈ rs.flatMap (·.entries workDir)) ∧
    ∀ p s, (execDiff workDir (terminated (ds.flatMap (·.tokens)))).lookup p = some s ↔
      (p, s) ∈ ds.flatMap (·.entries workDir) := by
  unfold execStatus execDiff
  rw [readOutput_terminated (StatusRecord.reads workDir) (fun _ => rfl),
    readOutput_terminated (DiffRecord.reads workDir) (fun _ => rfl)]
  exact ⟨lookup_inserted hr, lookup_inserted hd⟩

/-- A rename to a path that looks like a record itself, and then a change of another file. -/
def renamedCode : StatusRecord :=
  ⟨.renamed, .unmodified, "M  a".toList, some "A".toList, by decide, by decide,
    by simp [IsPathToken]⟩

def unstagedChange : StatusRecord :=
  ⟨.unmodified, .modified, "R  b\n".toList, none, by decide, by decide, by simp [IsPathToken]⟩

def stagedDeletion : DiffRecord := ⟨.deleted, "M".toList, by decide, by simp [IsPathToken]⟩

theorem renamed_code_is_deleted :
    (execStatus ⟨true, []⟩ (terminated ([renamedCode, unstagedChange].flatMap (·.tokens)))).lookup
        ⟨true, [.normal "A"]⟩ = some [.deleted, .staged] ∧
      (execDiff ⟨true, []⟩ (terminated ([stagedDeletion].flatMap (·.tokens)))).lookup
        ⟨true, [.normal "M"]⟩ = some [.deleted, .staged] :=
  have h := git_records_are_decoded ⟨true, []⟩ [renamedCode, unstagedChange] [stagedDeletion]
    (by decide) (by decide)
  ⟨(h.1 _ _).mpr (by decide), (h.2 _ _).mpr (by decide)⟩

end Moon.Proofs
