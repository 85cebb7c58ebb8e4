import Moon.Proofs.TaskInputs

/-!
# Negated input globs

Globs are walked in two groups, so a negated one only takes away what the globs of its own group
find.
-/

namespace Moon.Proofs

open List Lib

variable {e : GlobEngine} {tree fs : List PathBuf} {r f : PathBuf}
  {gs : List (WorkspaceRelativePath × TaskGlobInput)} {g : GlobSet}

/-- A walk finds the files of the tree that the glob set of its patterns matches. -/
def WalksTree (engine : GlobEngine) (tree : List PathBuf) : Prop :=
  ∀ cache dir patterns files, engine.walkFast cache dir patterns = .ok files →
    ∃ globset, GlobSet.new engine patterns = .ok globset ∧
      ∀ file, file ∈ files ↔ file ∈ tree ∧ globset.isMatch (file.relativeTo dir).asStr = true

/-- A glob of the list that is negated, or one that is not, matches the file. -/
def GlobMatches (engine : GlobEngine) (root : PathBuf) (negated : Bool)
    (globs : List (WorkspaceRelativePath × TaskGlobInput)) (file : PathBuf) : Prop :=
  ∃ glob ∈ globs, (engine.parse glob.1.asStr).1 = negated ∧
    ∃ matcher, engine.compile (engine.parse glob.1.asStr).2 = .ok matcher ∧
      matcher (file.relativeTo root).asStr = true

/-- Globs are walked in two groups. -/
def globGroup (cache : Bool) (task : Task) : List (WorkspaceRelativePath × TaskGlobInput) :=
  task.inputGlobs.filter (·.2.cache == cache)

/-- Matched by a glob of the group and by no negated one. -/
def FoundBy (engine : GlobEngine) (root : PathBuf) (cache : Bool) (task : Task)
    (file : PathBuf) : Prop :=
  GlobMatches engine root false (globGroup cache task) file ∧
    ¬ GlobMatches engine root true (globGroup cache task) file

def IsInputFile (root : PathBuf) (task : Task) (file : PathBuf) : Prop :=
  ∃ input ∈ task.inputFiles, input.1.toLogicalPath root = file

lemma any_matcher_iff {ps : List String} {ms : List (String → Bool)}
    (h : ps.mapM e.compile = .ok ms) (path : String) :
    ms.any (fun matcher => matcher path) ↔ ∃ p ∈ ps, ∃ matcher, e.compile p = .ok matcher ∧
        matcher path := by
  rw [any_eq_true]
  constructor
  · rintro ⟨matcher, hm, hp⟩
    obtain ⟨p, hpm, hc⟩ := mem_of_mapM_eq_ok h hm
    exact ⟨p, hpm, matcher, hc, hp⟩
  · rintro ⟨p, hpm, matcher, hc, hp⟩
    obtain ⟨m, hm, hmm⟩ := mapM_eq_ok_mem h hpm
    cases hc.symm.trans hm
    exact ⟨matcher, hmm, hp⟩

lemma isMatch_iff (h : GlobSet.new e (gs.map (·.1.asStr)) = .ok g) :
    g.isMatch (f.relativeTo r).asStr ↔
      GlobMatches e r false gs f ∧ ¬ GlobMatches e r true gs f := by
  obtain ⟨he, hn⟩ := newSplit_eq_ok h
  rw [GlobSet.isMatch, Bool.and_eq_true, Bool.not_eq_true', ← Bool.not_eq_true, and_comm]
  refine and_congr ((any_matcher_iff he _).trans ?_) (not_congr ((any_matcher_iff hn _).trans ?_))
  · simp only [GlobSet.splitPatterns, mem_map, mem_filter, Bool.not_eq_true']
    constructor
    · rintro ⟨_, ⟨_, ⟨⟨gl, hm, rfl⟩, hp⟩, rfl⟩, hc⟩
      exact ⟨gl, hm, hp, hc⟩
    · rintro ⟨gl, hm, hp, hc⟩
      exact ⟨_, ⟨_, ⟨⟨gl, hm, rfl⟩, hp⟩, rfl⟩, hc⟩
  · simp only [GlobSet.splitPatterns, mem_map, mem_filter]
    constructor
    · rintro ⟨_, ⟨_, ⟨⟨gl, hm, rfl⟩, hp⟩, rfl⟩, hc⟩
      exact ⟨gl, hm, hp, hc⟩
    · rintro ⟨gl, hm, hp, hc⟩
      exact ⟨_, ⟨_, ⟨⟨gl, hm, rfl⟩, hp⟩, rfl⟩, hc⟩

lemma mem_walkGlobs {c : Bool} (hw : WalksTree e tree) (h : Task.walkGlobs e c r gs = .ok fs) :
    f ∈ fs ↔ f ∈ tree ∧ GlobMatches e r false gs f ∧ ¬ GlobMatches e r true gs f := by
  unfold Task.walkGlobs at h
  split_ifs at h with he
  · cases h
    obtain rfl := isEmpty_iff.mp he
    simp [GlobMatches]
  · obtain ⟨g, hg, hm⟩ := hw _ _ _ _ h
    rw [hm, isMatch_iff hg]

lemma mem_getInputFiles {t : Task} {i : PathBuf → Bool} (hw : WalksTree e tree)
    (h : t.getInputFiles e i r = .ok fs) :
    f ∈ fs ↔ IsInputFile r t f ∧ i f ∨ f ∈ tree ∧ ∃ c, FoundBy e r c t f := by
  obtain ⟨globbed, hg, h⟩ := bind_eq_ok h
  cases h
  obtain ⟨cached, hc, h⟩ := bind_eq_ok hg
  obtain ⟨rest, hr, h⟩ := bind_eq_ok h
  cases h
  rw [mem_append, mem_append, mem_walkGlobs hw hc, mem_walkGlobs hw hr, mem_filter, mem_map]
  have htrue : t.inputGlobs.filter (·.2.cache) = globGroup true t := filter_congr (by simp)
  have hfalse : t.inputGlobs.filter (!·.2.cache) = globGroup false t := filter_congr (by simp)
  rw [htrue, hfalse, Bool.exists_bool, and_or_left]
  exact or_congr_right or_comm

/-- No file that a negated glob matches is an input unless it is listed, exactly if the files that
one group finds are not among those that the other group negates. -/
theorem negated_globs_exclude_iff (engine : GlobEngine) (tree : List PathBuf)
    (hwalks : WalksTree engine tree) (task : Task) (isFile : PathBuf → Bool) (root : PathBuf)
    (files : List PathBuf) (hfiles : task.getInputFiles engine isFile root = .ok files) :
    (∀ file ∈ files, GlobMatches engine root true task.inputGlobs file →
      IsInputFile root task file) ↔
    ∀ cache, ∀ file ∈ tree, FoundBy engine root cache task file →
      GlobMatches engine root true (globGroup (!cache) task) file →
      IsInputFile root task file := by
  have hgroup : ∀ cache file, GlobMatches engine root true task.inputGlobs file ↔
      GlobMatches engine root true (globGroup cache task) file ∨
        GlobMatches engine root true (globGroup (!cache) task) file := by
    intro cache file
    constructor
    · rintro ⟨gl, hm, h⟩
      by_cases hc : gl.2.cache = cache
      · exact .inl ⟨gl, mem_filter.mpr ⟨hm, by simp [hc]⟩, h⟩
      · exact .inr ⟨gl, mem_filter.mpr ⟨hm, by simpa using Bool.eq_not.mpr hc⟩, h⟩
    · rintro (⟨gl, hm, h⟩ | ⟨gl, hm, h⟩)
      · exact ⟨gl, mem_of_mem_filter hm, h⟩
      · exact ⟨gl, mem_of_mem_filter hm, h⟩
  constructor
  · intro h cache file ht hb hn
    exact h file ((mem_getInputFiles hwalks hfiles).mpr (.inr ⟨ht, cache, hb⟩))
      ((hgroup cache file).mpr (.inr hn))
  · intro h file hm hn
    rcases (mem_getInputFiles hwalks hfiles).mp hm with ⟨hl, -⟩ | ⟨ht, cache, hb⟩
    · exact hl
    · exact h cache file ht hb (((hgroup cache file).mp hn).resolve_left hb.2)

/-- Matches texts literally, and negates with `!`. -/
def negatingMatcher : GlobEngine :=
  { literalGlobs with
    parse := fun pattern =>
      if pattern.toList.head? = some '!' then (true, String.ofList (pattern.toList.drop 1))
      else (false, pattern) }

def negatingGlobs (tree : List PathBuf) : GlobEngine :=
  { negatingMatcher with
    walkFast := fun _ dir patterns => do
      let globset ← GlobSet.new negatingMatcher patterns
      return tree.filter (fun file => globset.isMatch (file.relativeTo dir).asStr) }

lemma walksTree_negatingGlobs (tree : List PathBuf) : WalksTree (negatingGlobs tree) tree := by
  intro c dir ps fs h
  obtain ⟨g, hg, h⟩ := bind_eq_ok h
  cases h
  exact ⟨g, hg, fun f => mem_filter⟩

def repoFile (name : String) : PathBuf := ⟨true, [.normal "repo", .normal name]⟩

def globbedTask (negationCached : Bool) : Task where
  target := Target.new "app" "lint"
  inputGlobs := [(⟨["a.ts"]⟩, { cache := true }), (⟨["b.ts"]⟩, { cache := true }),
    (⟨["!a.ts"]⟩, { cache := negationCached })]

/-- The file is found by a cached glob, and the glob that negates it is not cached. -/
theorem uncached_negation_ignored :
    (globbedTask false).getInputFiles (negatingGlobs [repoFile "a.ts", repoFile "b.ts"])
      (fun _ => true) ⟨true, [.normal "repo"]⟩ = .ok [repoFile "a.ts", repoFile "b.ts"] := by
  decide

theorem cached_negation_excludes :
    (globbedTask true).getInputFiles (negatingGlobs [repoFile "a.ts", repoFile "b.ts"])
        (fun _ => true) ⟨true, [.normal "repo"]⟩ = .ok [repoFile "b.ts"] ∧
      ∀ file ∈ [repoFile "b.ts"],
        GlobMatches (negatingGlobs [repoFile "a.ts", repoFile "b.ts"]) ⟨true, [.normal "repo"]⟩ true
          (globbedTask true).inputGlobs file →
        IsInputFile ⟨true, [.normal "repo"]⟩ (globbedTask true) file := by
  have hf : (globbedTask true).getInputFiles (negatingGlobs [repoFile "a.ts", repoFile "b.ts"])
      (fun _ => true) ⟨true, [.normal "repo"]⟩ = .ok [repoFile "b.ts"] := by decide
  refine ⟨hf, (negated_globs_exclude_iff _ _ (walksTree_negatingGlobs _) _ _ _ _ hf).mpr ?_⟩
  rintro cache file - ⟨⟨glob, hg, -⟩, -⟩ ⟨other, ho, -⟩
  -- no glob is in the group that is not cached
  cases cache with
  | false => exact absurd hg (by simp [globGroup, globbedTask])
  | true => exact absurd ho (by simp [globGroup, globbedTask])

end Moon.Proofs
