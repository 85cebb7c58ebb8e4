import Mathlib.Data.List.ReduceOption
import Moon.Proofs.AffectedTracker
import Moon.TaskInputs

/-!
# Hashed inputs and affected tasks

Every file that is hashed for a task was listed, walked to, or found in the project, and the
last two are matched by the globs.
-/

namespace Moon.Proofs

open Moon.Lib AffectedMarks List Bool TaskHasher GlobSet

variable {patterns : List String} {root file : PathBuf} {g : GlobSet}
  {globs : List (WorkspaceRelativePath × TaskGlobInput)} {i : GlobSet}

variable {fs : List PathBuf}

section

variable {engine : GlobEngine}

lemma newSplit_eq_ok {es ns : List String} (h : newSplit engine es ns = .ok g) :
    es.mapM engine.compile = .ok g.expressions ∧ ns.mapM engine.compile = .ok g.negations := by
  obtain ⟨included, hi, h⟩ := bind_eq_ok h
  obtain ⟨excluded, hex, h⟩ := bind_eq_ok h
  cases h
  exact ⟨hi, hex⟩

/-- A walk finds only files that the patterns match. -/
def WalksMatches (engine : GlobEngine) : Prop :=
  ∀ cache dir patterns files, engine.walkFast cache dir patterns = .ok files →
    ∀ file ∈ files, ∃ globset, GlobSet.new engine patterns = .ok globset ∧
      globset.isMatch (file.relativeTo dir).asStr = true

lemma isIncluded_of_walkGlobs (hw : WalksMatches engine) {t : Task}
    (hgs : t.createGlobset engine = .ok g) {c : Bool} (hg : globs ⊆ t.inputGlobs)
    (hf : Task.walkGlobs engine c root globs = .ok fs)
    (hfl : file ∈ fs) : g.isIncluded (file.relativeTo root).asStr := by
  unfold Task.walkGlobs at hf
  split at hf
  next =>
    cases hf
    cases hfl
  next =>
    obtain ⟨part, hpr, hm⟩ := hw c root _ fs hf file hfl
    obtain ⟨e, hex, hm⟩ := any_eq_true.mp (and_eq_true_iff.mp hm).2
    obtain ⟨pattern, hp, hc⟩ := mem_of_mapM_eq_ok (newSplit_eq_ok hpr).1 hex
    obtain ⟨f, hfd, hme⟩ := mapM_eq_ok_mem (newSplit_eq_ok hgs).1
      (map_subset _ (filter_subset _ (map_subset _ hg)) hp)
    rw [hc] at hfd
    cases hfd
    exact any_eq_true.mpr ⟨e, hme, hm⟩

lemma isIncluded_of_walk (hw : WalksMatches engine) {t : Task} (hg : t.createGlobset engine = .ok g)
    (hglb : globs ⊆ t.inputGlobs) (hf : Task.getInputFilesWithGlobs engine root globs = .ok fs)
    (hfl : file ∈ fs) : g.isIncluded (file.relativeTo root).asStr := by
  obtain ⟨cached, hc, h⟩ := bind_eq_ok hf
  obtain ⟨nonCached, hn, h⟩ := bind_eq_ok h
  cases h
  have hs : ∀ k, globs.filter k ⊆ t.inputGlobs :=
    fun k glob hgl => hglb (mem_of_mem_filter hgl)
  rcases mem_append.mp hfl with hm | hm
  · exact isIncluded_of_walkGlobs hw hg (hs _) hc hm
  · exact isIncluded_of_walkGlobs hw hg (hs _) hn hm

end

variable {a : PathBuf} {ins : List PathBuf}

section

variable {hasher : TaskHasher} {cs : List WorkspaceRelativePath}

def hashPath (hasher : TaskHasher) (path : WorkspaceRelativePath) : WorkspaceRelativePath :=
  hasher.relPath (hasher.toLogicalPath path)

/-- Version control lists files by the paths that they resolve to, and the tree of a directory
below the root is inside of it. -/
structure ListsLogical (hasher : TaskHasher) : Prop where
  tree : hasher.project.root ≠ hasher.context.workspaceRoot →
    ∀ files, hasher.context.fileTree hasher.project.source = .ok files →
      ∀ file ∈ files, hashPath hasher file = file ∧ file.startsWith hasher.project.source = true
  changes : ∀ files, hasher.context.changedFiles = .ok files →
    ∀ file ∈ files, hashPath hasher file = file

lemma mem_foldl_applyChange (h : a ∈ cs.foldl hasher.applyChange fs) :
    a ∈ fs ∨ ∃ change ∈ cs, a = hasher.toLogicalPath change ∧
      change.startsWith hasher.project.source := by
  induction cs generalizing fs with
  | nil => exact .inl h
  | cons change cs ih =>
    obtain hm | ⟨o, ho, hr⟩ := ih h
    · unfold applyChange at hm
      dsimp only at hm
      split at hm
      next =>
        split at hm
        next hs =>
          exact (mem_insert_iff.mp hm).elim (fun heq => .inr ⟨change, mem_cons_self, heq, hs⟩) .inl
        next => exact .inl hm
      next => exact .inl (mem_of_mem_filter hm)
    · exact .inr ⟨o, mem_cons_of_mem _ ho, hr⟩

lemma mem_foldl_applyChange_of_exists (hm : a ∈ fs) (hex : hasher.context.fileExists a) :
    a ∈ cs.foldl hasher.applyChange fs := by
  induction cs generalizing fs with
  | nil => exact hm
  | cons change cs ih =>
    apply ih
    unfold applyChange
    dsimp only
    split
    next =>
      split
      next => exact mem_insert_of_mem hm
      next => exact hm
    next hms =>
      refine mem_filter.mpr ⟨hm, ?_⟩
      rw [decide_eq_true_iff]
      rintro rfl
      exact hms hex

lemma globbedInputs_cases (hw : WalksMatches hasher.context.engine) (hlst : ListsLogical hasher)
    (hg : hasher.task.createGlobset hasher.context.engine = .ok g)
    (hf : hasher.globbedInputs = .ok fs) (hm : a ∈ fs) :
    g.isIncluded (hasher.relPath a).asStr ∨
      (hasher.relPath a).startsWith hasher.project.source := by
  unfold globbedInputs at hf
  dsimp only at hf
  split at hf
  next =>
    cases hf
    cases hm
  next =>
    split at hf
    next => exact .inl (isIncluded_of_walk hw hg (List.Subset.refl _) hf hm)
    next hbelow =>
      obtain ⟨tree, ht, h⟩ := bind_eq_ok hf
      obtain ⟨globbed, hgl, h⟩ := bind_eq_ok h
      cases h
      rcases mem_append.mp hm with hls | hwl
      · obtain ⟨file, hfl, rfl⟩ := mem_map.mp hls
        obtain ⟨hl, hi⟩ := hlst.tree (fun h => hbelow (.inl h)) tree ht file hfl
        have hp : hasher.relPath (hasher.toLogicalPath file) = file := hl
        exact .inr (hp.symm ▸ hi)
      · exact .inl (isIncluded_of_walk hw hg (filter_subset_self _) hgl hwl)

lemma aggregateInputs_eq_ok (h : hasher.aggregateInputs = .ok ins) :
    ∃ gl cs, hasher.globbedInputs = .ok gl ∧ ins = cs.foldl hasher.applyChange
        (hasher.task.inputFiles.map (fun e => hasher.toLogicalPath e.1) ++ gl) ∧
      (cs = [] ∨ hasher.context.changedFiles = .ok cs) := by
  obtain ⟨gl, hg, h⟩ := bind_eq_ok h
  dsimp only at h
  split at h
  next =>
    obtain ⟨cs, hc, h⟩ := bind_eq_ok h
    cases h
    exact ⟨gl, cs, hg, rfl, .inr hc⟩
  next =>
    cases h
    exact ⟨gl, [], hg, rfl, .inl rfl⟩

lemma aggregateInputs_cases (hw : WalksMatches hasher.context.engine) (hl : ListsLogical hasher)
    (hgs : hasher.task.createGlobset hasher.context.engine = .ok g)
    (hin : hasher.aggregateInputs = .ok ins) (hm : a ∈ ins) :
    (∃ e ∈ hasher.task.inputFiles, hasher.toLogicalPath e.1 = a) ∨
      g.isIncluded (hasher.relPath a).asStr ∨
      (hasher.relPath a).startsWith hasher.project.source := by
  obtain ⟨globbed, cs, hg, rfl, hc⟩ := aggregateInputs_eq_ok hin
  obtain hf | ⟨change, hch, rfl, hi⟩ := mem_foldl_applyChange hm
  · exact (mem_append.mp hf).imp mem_map.mp (globbedInputs_cases hw hl hgs hg)
  · rcases hc with rfl | hc
    · cases hch
    · have hlg := hl.changes cs hc change hch
      change _ ∨ _ ∨ (hashPath hasher change).startsWith _
      exact .inr (.inr (hlg.symm ▸ hi))

variable {p : WorkspaceRelativePath}

lemma inputFile_mem_aggregateInputs (hi : hasher.aggregateInputs = .ok ins)
    {ps : TaskFileInput} (hen : (p, ps) ∈ hasher.task.inputFiles)
    (hex : hasher.context.fileExists (hasher.toLogicalPath p)) : hasher.toLogicalPath p ∈ ins := by
  obtain ⟨globbed, cs, -, rfl, -⟩ := aggregateInputs_eq_ok hi
  have hl := mem_map_of_mem (f := fun e : WorkspaceRelativePath × TaskFileInput =>
    hasher.toLogicalPath e.1) hen
  exact mem_foldl_applyChange_of_exists (mem_append_left _ hl) hex

/-- The file is an input that exists and is not ignored. -/
structure Hashable (hasher : TaskHasher) (globset ignore : GlobSet) (absPath : PathBuf) :
    Prop where
  valid : hasher.isValidInputSource globset (hasher.relPath absPath) = true
  fileExists : hasher.context.fileExists absPath = true
  isFile : hasher.context.isFile absPath = true
  notIgnored : ignore.isIncluded absPath.rawText.asStr = false

lemma processInput_eq_some (hflt : hasFilters hasher.task) :
    hasher.processInput g i a = .ok (some p) ↔ hasher.relPath a = p ∧ Hashable hasher g i a := by
  unfold processInput
  dsimp only
  rw [hflt, Bool.true_and]
  constructor
  · intro h
    split at h
    next => cases h
    next hv =>
      split at h
      next =>
        split at h <;> cases h
      next hex =>
        split at h
        next => cases h
        next hf =>
          split at h
          next => cases h
          next hi =>
            cases h
            simp only [Bool.not_eq_true', Bool.not_eq_false] at hv hex hf hi
            exact ⟨rfl, hv, hex, hf, by simpa using hi⟩
  · rintro ⟨rfl, ha⟩
    simp [ha.valid, ha.fileExists, ha.isFile, ha.notIgnored]

lemma mem_hashInputs (hfl : hasFilters hasher.task)
    {hashd : List WorkspaceRelativePath} (h : hasher.hashInputs = .ok hashd) :
    ∃ ins g i, hasher.aggregateInputs = .ok ins ∧
      hasher.task.createGlobset hasher.context.engine = .ok g ∧
      new hasher.context.engine hasher.hasherConfig.ignorePatterns = .ok i ∧
      ∀ p, p ∈ hashd ↔ hasher.context.vcsEnabled ∧ ∃ a ∈ ins, hasher.relPath a = p ∧
          Hashable hasher g i a := by
  obtain ⟨ins, hin, h⟩ := bind_eq_ok h
  obtain ⟨fs, hf, h⟩ := bind_eq_ok h
  obtain ⟨i, hi, hf⟩ := bind_eq_ok hf
  obtain ⟨_, -, hf⟩ := bind_eq_ok hf
  obtain ⟨g, hg, hf⟩ := bind_eq_ok hf
  obtain ⟨paths, hp, hf⟩ := bind_eq_ok hf
  cases hf
  refine ⟨ins, g, i, hin, hg, hi, fun p => ?_⟩
  have hm : p ∈ paths.reduceOption ↔ ∃ a ∈ ins, hasher.relPath a = p ∧
      Hashable hasher g i a := by
    rw [reduceOption_mem_iff]
    constructor
    · intro hpt
      obtain ⟨a, ha, hpr⟩ := mem_of_mapM_eq_ok hp hpt
      exact ⟨a, ha, (processInput_eq_some hfl).mp hpr⟩
    · rintro ⟨a, ha, hashb⟩
      obtain ⟨f, hfd, hfn⟩ := mapM_eq_ok_mem hp ha
      rw [(processInput_eq_some hfl).mpr hashb] at hfd
      cases hfd
      exact hfn
  cases h
  rw [← hm]
  cases hasher.context.vcsEnabled <;> simp

lemma isValidInputSource_cases (h : hasher.isValidInputSource g p) : g.isExcluded p.asStr = false ∧
      (p.startsWith hasher.project.source →
        (hasher.task.findInputFile p).isSome ∨ g.isMatch p.asStr) := by
  unfold isValidInputSource at h
  split at h
  next => cases h
  next =>
    split at h
    next => cases h
    next hi =>
      refine ⟨by simpa using hi, fun hin => ?_⟩
      split at h
      next => cases h
      next =>
        rw [hin] at h
        simpa using h

end

section

/-- `runInCI` does not settle whether the task is affected. -/
def NeutralInCI (ci : Bool) (task : Task) : Prop :=
  match ci, task.options.runInCI with
  | true, .always | true, .enabled false | true, .skip | false, .only => False
  | _, _ => True

instance (ci : Bool) (task : Task) : Decidable (NeutralInCI ci task) := by
  unfold NeutralInCI
  split <;> infer_instance

def isTracked (task : Task) (globset : GlobSet) (file : WorkspaceRelativePath) : Bool :=
  (task.findInputFile file).isSome || globset.isMatch file.asStr

variable {cs : ChangeSet} {t : Task}

lemma isFileAffected_eq (hc : ∀ e ∈ t.inputFiles, e.2.content = none)
    (file : WorkspaceRelativePath) : cs.isFileAffected t g file = .ok (isTracked t g file) := by
  unfold ChangeSet.isFileAffected isTracked
  cases hf : t.findInputFile file with
  | none => rfl
  | some params =>
    obtain ⟨e, hen, rfl⟩ := Option.map_eq_some_iff.mp hf
    simp only [hc e (mem_of_find?_eq_some hen), Option.isSome_some, Bool.true_or]

lemma findAffectedFile_eq (hc : ∀ e ∈ t.inputFiles, e.2.content = none)
    (fs : List WorkspaceRelativePath) :
    cs.findAffectedFile t g fs = .ok (fs.find? (isTracked t g)) := by
  induction fs with
  | nil => rfl
  | cons file fs ih =>
    unfold ChangeSet.findAffectedFile
    rw [isFileAffected_eq hc, find?_cons]
    cases isTracked t g file with
    | true => rfl
    | false => exact ih

/-- Without a variable that is set, a task with inputs is affected by the changed files that
are inputs of it. -/
lemma changedInput_isSome (hem : t.state.emptyInputs = false)
    (hc : ∀ e ∈ t.inputFiles, e.2.content = none) (hg : t.createGlobset cs.engine = .ok g) :
    ∃ f, cs.changedInput t = .ok f ∧ (f.isSome ↔ (∃ n ∈ t.inputEnv, (cs.env n).any (· ≠ "")) ∨
        ∃ file ∈ cs.changedFiles, isTracked t g file) := by
  unfold ChangeSet.changedInput
  rw [hem]
  cases hn : t.inputEnv.find? (fun n => (cs.env n).any (· ≠ "")) with
  | some n =>
    have hs := find?_some hn
    exact ⟨_, rfl, fun _ => .inl ⟨n, mem_of_find?_eq_some hn, hs⟩, fun _ => rfl⟩
  | none =>
    have hu : ¬ ∃ n ∈ t.inputEnv, (cs.env n).any (· ≠ "") := by
      rintro ⟨n, hm, hs⟩
      exact find?_eq_none.mp hn n hm hs
    refine ⟨(cs.changedFiles.find? (isTracked t g)).map .file, ?_, ?_⟩
    · rw [hg]
      change (cs.findAffectedFile t g cs.changedFiles >>= _) = _
      rw [findAffectedFile_eq hc]
      rfl
    · rw [Option.isSome_map, find?_isSome, or_iff_right hu]

lemma isTaskAffected_iff {w : WorkspaceGraph} {ci : Bool} (hn : NeutralInCI ci t)
    {f : Option ChangedInput} (hf : cs.changedInput t = .ok f) (ms : AffectedMarks) :
    (∃ r, isTaskAffected (cs.tracker w ci) ms t = .ok (some r)) ↔
      directlyMarked ms.tasks t.target ∨ f.isSome := by
  have hc : isTaskAffected (cs.tracker w ci) {} t = .ok (f.map ChangedInput.affectedBy) := by
    have hem : ({} : AffectedMarks).isTaskMarkedIgnoringRelations t = false := by
      simp [isTaskMarkedIgnoringRelations]
    unfold isTaskAffected
    rw [hem]
    simp only [ChangeSet.tracker, false_eq_true, if_false, hf]
    unfold NeutralInCI at hn
    rcases ci with _ | _ <;> rcases hr : t.options.runInCI with _ | _ | _ | _ | (_ | _) <;>
      rw [hr] at hn <;> first | exact hn.elim | rfl
  rw [isTaskAffected_eq, hc]
  split
  next hd => simp [hd]
  next hd =>
    cases f <;> simp [hd]

end

/-- An input file that is hashed by the path it resolves to, which is not a path that the
tracker knows it by. -/
structure Overlooked (hasher : TaskHasher) (path : WorkspaceRelativePath) : Prop where
  enabled : hasher.context.vcsEnabled = true
  overlooked : ∃ globset ignore, hasher.task.createGlobset hasher.context.engine = .ok globset ∧
    GlobSet.new hasher.context.engine hasher.hasherConfig.ignorePatterns = .ok ignore ∧
    Hashable hasher globset ignore (hasher.toLogicalPath path) ∧
    isTracked hasher.task globset (hashPath hasher path) = false

lemma isTracked_of_hashable {hasher : TaskHasher} (hw : WalksMatches hasher.context.engine)
    (hl : ListsLogical hasher)
    (hen : hasher.context.vcsEnabled) (hin : hasher.aggregateInputs = .ok ins)
    (hg : hasher.task.createGlobset hasher.context.engine = .ok g)
    (hi : new hasher.context.engine hasher.hasherConfig.ignorePatterns = .ok i)
    (hn : ∀ e ∈ hasher.task.inputFiles, ¬ Overlooked hasher e.1)
    (hm : a ∈ ins) (ha : Hashable hasher g i a) : isTracked hasher.task g (hasher.relPath a) := by
  obtain ⟨hinc, hins⟩ := isValidInputSource_cases ha.valid
  obtain ⟨e, hent, rfl⟩ | hgl | hs := aggregateInputs_cases hw hl hg hin hm
  · by_contra ht
    exact hn e hent ⟨hen, g, i, hg, hi, ha, eq_false_iff.mpr ht⟩
  · simp [isTracked, isMatch, hgl, hinc]
  · simpa [isTracked] using hins hs

/-- For a task with inputs, without content matchers and with a neutral `runInCI`, every changed
file that is hashed makes it affected, iff a variable among the inputs is set or no input file is
written with a path other than the one it is hashed by. -/
theorem hashed_changes_affect_iff (hasher : TaskHasher) (changes : ChangeSet)
    (workspace : WorkspaceGraph) (ci : Bool) (hwalks : WalksMatches hasher.context.engine)
    (hlists : ListsLogical hasher) (hengine : changes.engine = hasher.context.engine)
    (hconfigured : hasher.task.inputFiles ≠ [] ∨ hasher.task.inputGlobs ≠ [])
    (hempty : hasher.task.state.emptyInputs = false)
    (hcontent : ∀ entry ∈ hasher.task.inputFiles, entry.2.content = none)
    (hneutral : NeutralInCI ci hasher.task) (hashed : List WorkspaceRelativePath)
    (hhashed : hasher.hashInputs = .ok hashed) :
    (∀ changed marks, ∀ file ∈ changed, file ∈ hashed → ∃ reason,
        isTaskAffected (({ changes with changedFiles := changed } : ChangeSet).tracker workspace ci)
          marks hasher.task = .ok (some reason)) ↔
      (∃ name ∈ hasher.task.inputEnv, (changes.env name).any (· ≠ "") = true) ∨
        ∀ entry ∈ hasher.task.inputFiles, ¬ Overlooked hasher entry.1 := by
  have hflt : hasFilters hasher.task := by
    rcases hconfigured with hfls | hgl
    · simp [hasFilters, hfls]
    · simp [hasFilters, hgl]
  obtain ⟨ins, g, i, hin, hg, hig, hm⟩ := mem_hashInputs hflt hhashed
  -- what the tracker finds, for any set of changed files
  have hfd : ∀ changed, ∃ f,
      ({ changes with changedFiles := changed } : ChangeSet).changedInput hasher.task = .ok f ∧
      (f.isSome ↔ (∃ name ∈ hasher.task.inputEnv, (changes.env name).any (· ≠ "")) ∨
          ∃ file ∈ changed, isTracked hasher.task g file) := by
    intro changed
    apply changedInput_isSome hempty hcontent
    rw [← hg, ← hengine]
  constructor
  · intro hsn
    by_cases hen : ∃ name ∈ hasher.task.inputEnv, (changes.env name).any (· ≠ "")
    · exact .inl hen
    · refine .inr (fun entry hent ho => ?_)
      obtain ⟨globset', ignore', hg', hi', ha, hu⟩ := ho.overlooked
      rw [hg] at hg'
      rw [hig] at hi'
      cases hg'
      cases hi'
      have hl := inputFile_mem_aggregateInputs hin hent ha.fileExists
      have hf : hashPath hasher entry.1 ∈ hashed := (hm _).mpr ⟨ho.enabled, _, hl, rfl, ha⟩
      obtain ⟨f, hinp, hi⟩ := hfd [hashPath hasher entry.1]
      obtain hmk | hsm := (isTaskAffected_iff hneutral hinp {}).mp (hsn _ {} _ mem_cons_self hf)
      · simp [directlyMarked] at hmk
      · obtain hs | ⟨file, hc, ht⟩ := hi.mp hsm
        · exact hen hs
        · cases mem_singleton.mp hc
          rw [hu] at ht
          cases ht
  · intro hcn changed marks file hf hh
    obtain ⟨henb, a, hab, rfl, ha⟩ := (hm file).mp hh
    obtain ⟨f, hinp, hi⟩ := hfd changed
    refine (isTaskAffected_iff hneutral hinp marks).mpr (.inr (hi.mpr ?_))
    refine hcn.imp_right (fun hn => ⟨_, hf, ?_⟩)
    exact isTracked_of_hashable hwalks hlists henb hin hg hig hn hab ha

def literalGlobs : GlobEngine :=
  { parse := fun pattern => (false, pattern)
    compile := fun pattern => .ok (fun path => path == pattern)
    walkFast := fun _ _ _ => .ok [] }

def lintRoot : PathBuf := ⟨true, [.normal "repo"]⟩

def lintHasher (input : WorkspaceRelativePath) : TaskHasher :=
  { context :=
      { workspaceRoot := lintRoot
        fileExists := fun path =>
          path = ⟨true, [.normal "repo", .normal "tools", .normal "lint.json"]⟩
        isFile := fun _ => true
        engine := literalGlobs }
    project :=
      { id := "app"
        root := ⟨true, [.normal "repo", .normal "packages", .normal "app"]⟩
        source := ⟨["packages", "app"]⟩ }
    task :=
      { target := Target.new "app" "lint"
        inputFiles := [(input, {})]
        inputGlobs := [(⟨[".moon", "*.yml"]⟩, {})] } }

def lintChanges (changed : List WorkspaceRelativePath) : ChangeSet :=
  { workspaceRoot := lintRoot
    changedFiles := changed
    env := fun _ => none
    fileExists := fun _ => true
    readFile := fun _ => .ok ""
    isMatch := fun _ _ => false
    engine := literalGlobs }

lemma walksMatches_literalGlobs : WalksMatches literalGlobs := by
  intro cache dir patterns fs hf file hfl
  cases hf
  cases hfl

lemma listsLogical_lintHasher (i : WorkspaceRelativePath) : ListsLogical (lintHasher i) where
  tree _ fs hf file hfl := by
    cases hf
    cases hfl
  changes fs hf file hfl := by
    cases hf
    cases hfl

/-- Written as `/tools/lint.json`, the input makes the task affected. -/
theorem lint_affected_by_config : ∃ reason,
    isTaskAffected ((lintChanges [⟨["tools", "lint.json"]⟩]).tracker {} true) {}
      (lintHasher ⟨["tools", "lint.json"]⟩).task = .ok (some reason) := by
  have hh : (lintHasher ⟨["tools", "lint.json"]⟩).hashInputs =
      .ok [⟨["tools", "lint.json"]⟩] := by decide
  have hs := (hashed_changes_affect_iff (lintHasher ⟨["tools", "lint.json"]⟩) (lintChanges [])
    {} true walksMatches_literalGlobs (listsLogical_lintHasher _) rfl (.inl (by decide)) rfl
    (by decide) (by decide) _ hh).mpr
  apply hs
  · refine .inr (fun e hen ho => ?_)
    cases mem_singleton.mp hen
    obtain ⟨g, i, hg, -, -, hu⟩ := ho.overlooked
    cases hg
    revert hu
    decide
  · exact mem_cons_self
  · exact mem_cons_self

/-- Written as `/tools/./lint.json`, the input is hashed, but the task is not affected. -/
theorem lint_overlooks_config :
    (lintHasher ⟨["tools", ".", "lint.json"]⟩).hashInputs = .ok [⟨["tools", "lint.json"]⟩] ∧
      isTaskAffected ((lintChanges [⟨["tools", "lint.json"]⟩]).tracker {} true) {}
        (lintHasher ⟨["tools", ".", "lint.json"]⟩).task = .ok none := by
  decide

end Moon.Proofs
