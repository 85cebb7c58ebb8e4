import Moon.Lib.Except
import Moon.OutputHydrater
import Moon.Proofs.Path

/-!
# What output hydration writes

Validation reads the raw components of a manifest path, unpacking resolves them.
-/

namespace Moon.Proofs
open Moon.Lib List Manifest ManifestUnpacker

/-- A location is declared by the task: it is a declared output or lies under one, or its
path below the workspace root matches a declared glob. -/
def DeclaredLocation (hydrater : OutputHydrater) (location : PathBuf) : Prop :=
  (∃ output ∈ hydrater.task.outputFiles, location.startsWith
    (cleanComponents (output.1.toLogicalPath hydrater.workspaceRoot.path)) = true) ∨
  (hydrater.task.outputGlobs ≠ [] ∧
    hydrater.taskOutputGlobset (relativeTo hydrater.workspaceRoot location) = true)

instance (hydrater : OutputHydrater) (location : PathBuf) :
    Decidable (DeclaredLocation hydrater location) :=
  inferInstanceAs (Decidable (_ ∨ _))

variable {r : WorkspaceRelativePath} {u : ManifestUnpacker} {l : PathBuf}

/-- A path that resolves is written at its components, and the root itself then has nothing left to
resolve. -/
lemma resolveAbsPath_ok (h : u.resolveAbsPath r = .ok l) :
    Resolved u.workspaceRoot.path.components ∧
    l = ⟨true, resolveComponents u.workspaceRoot.path.components r.components⟩ ∧
    u.workspaceRoot.path.components <+: l.components := by
  obtain ⟨⟨⟨root, dir⟩, ha⟩, f⟩ := u
  cases ha
  simp only [resolveAbsPath, toLogicalPath_eq, cleanComponents_absolute] at h
  split_ifs at h with hrt hs
  have hl := Except.ok.inj h
  rw [Bool.not_eq_true, Bool.not_eq_false'] at hs
  simp only [PathBuf.startsWith, beq_self_eq_true, Bool.true_and, isPrefixOf_iff_prefix] at hs
  -- the cleaned path has only names left, and so does the root it starts with
  have hd : Resolved dir := (resolved_resolveComponents resolved_nil _).left hs
  have hw : resolveComponents [] (resolveComponents dir r.components) =
      resolveComponents dir r.components := by
    rw [resolveComponents_of_resolved [] (resolved_resolveComponents hd _), nil_append]
  rw [hw] at hl hs
  subst hl
  exact ⟨hd, rfl, hs⟩

variable {o : CreatedOutput}

lemma mem_createAll {es : List (WorkspaceRelativePath × Except ManifestError PathBuf)}
    (h : o ∈ (u.createAll es).1) : (o.path, .ok o.location) ∈ es := by
  induction es with
  | nil => cases h
  | cons e es ih =>
    obtain ⟨path, r⟩ := e
    cases r with
    | error error => cases h
    | ok l =>
      rw [createAll] at h
      split_ifs at h
      · rcases mem_cons.mp h with rfl | hr
        · exact mem_cons_self
        · exact mem_cons_of_mem _ (ih hr)
      · rw [mem_singleton.mp h]
        exact mem_cons_self

lemma createAll_subset (root : WorkspaceRoot) (f : PathBuf → Bool)
    (es : List (WorkspaceRelativePath × Except ManifestError PathBuf)) :
    (createAll ⟨root, f⟩ es).1 ⊆ (createAll ⟨root, fun _ => true⟩ es).1 := by
  induction es with
  | nil => exact fun o h => h
  | cons e es ih =>
    obtain ⟨path, r⟩ := e
    cases r with
    | error error => exact fun o h => h
    | ok l =>
      simp only [createAll, if_true]
      split_ifs
      · exact cons_subset_cons _ ih
      · intro o h
        rw [mem_singleton.mp h]
        exact mem_cons_self

variable {manifest : Manifest}

lemma mem_unpack (h : o ∈ (u.unpack manifest).1) :
    o.path ∈ manifest.outputPaths ∧ u.resolveAbsPath o.path = .ok o.location := by
  have hm := mem_createAll h
  rcases mem_append.mp hm with hf | hl
  · obtain ⟨f, hf, heq⟩ := mem_map.mp hf
    obtain ⟨hpt, ho⟩ := Prod.mk.inj heq
    rw [← hpt]
    exact ⟨mem_append_left _ (mem_map_of_mem hf), ho⟩
  · obtain ⟨link, hl, heq⟩ := mem_map.mp hl
    obtain ⟨hpt, ho⟩ := Prod.mk.inj heq
    rw [← hpt]
    refine ⟨mem_append_right _ (mem_map_of_mem hl), ?_⟩
    obtain ⟨outputPath, hp, htg⟩ := bind_eq_ok ho
    cases ht : u.resolveAbsPath link.target with
    | error error => simp [ht] at htg
    | ok t =>
      simp only [ht, Except.ok.injEq] at htg
      rw [← htg]
      exact hp

def SameOutputs (left right : Manifest) : Prop :=
  left.files.map (fun file => (file.path, file.digest)) =
    right.files.map (fun file => (file.path, file.digest)) ∧
  left.symlinks = right.symlinks

lemma SameOutputs.unpack_eq {left right : Manifest} (h : SameOutputs left right)
    (u : ManifestUnpacker) : u.unpack left = u.unpack right := by
  have key (fs : List ManifestFile) : (fs.filter (fun f => f.digest.isSome)).map
          (fun f => (f.path, u.resolveAbsPath f.path)) =
        ((fs.map (fun f => (f.path, f.digest))).filter (fun e => e.2.isSome)).map
            (fun e => (e.1, u.resolveAbsPath e.1)) := by
    rw [filter_map, map_map]
    rfl
  unfold unpack
  rw [key left.files, key right.files, h.1, h.2]

variable {rd : PathBuf → Except StorageError Bytes} {hydrated : Manifest} {bs : Blobs}

lemma hydrate_sameOutputs (h : manifest.hydrate rd bs = .ok hydrated) :
    SameOutputs hydrated manifest := by
  obtain ⟨stderrBytes, -, h⟩ := bind_eq_ok h
  obtain ⟨stdoutBytes, -, h⟩ := bind_eq_ok h
  cases h
  refine ⟨?_, rfl⟩
  rw [map_map]
  apply map_congr_left
  intro f _
  simp only [Function.comp, ManifestFile.hydrate]
  split_ifs
  · rfl
  · split <;> rfl

lemma hydrateFromOthers_sameOutputs {rs : List (Except StorageError Blobs)}
    (h : hydrateFromOthers rd rs manifest = .ok hydrated) : SameOutputs hydrated manifest := by
  induction rs generalizing manifest with
  | nil =>
    cases h
    exact ⟨rfl, rfl⟩
  | cons response rs ih =>
    rw [hydrateFromOthers] at h
    split_ifs at h
    · cases h
      exact ⟨rfl, rfl⟩
    · obtain ⟨bs, -, h⟩ := bind_eq_ok h
      obtain ⟨next, hb, h⟩ := bind_eq_ok h
      have hn := hydrate_sameOutputs hb
      have hr := ih h
      exact ⟨hr.1.trans hn.1, hr.2.trans hn.2⟩

lemma hydrateManifest_sameOutputs {original : Except StorageError Blobs}
    {os : List (Except StorageError Blobs)}
    (h : hydrateManifest rd original os manifest = .ok (some hydrated)) :
    SameOutputs hydrated manifest := by
  obtain ⟨bs, -, h⟩ := bind_eq_ok h
  obtain ⟨first, hb, h⟩ := bind_eq_ok h
  obtain ⟨last, ho, h⟩ := bind_eq_ok h
  have hl : last = hydrated := by
    have h := Except.ok.inj h
    split_ifs at h
    exact Option.some.inj h
  subst hl
  have hf := hydrate_sameOutputs hb
  have hr := hydrateFromOthers_sameOutputs ho
  exact ⟨hr.1.trans hf.1, hr.2.trans hf.2⟩

def servingBlobs (manifest : Manifest) : Blobs :=
  (manifest.stderrDigest.toList ++ manifest.stdoutDigest.toList ++
    manifest.files.filterMap ManifestFile.digest).map (fun digest => (digest, .inline []))

lemma get_servingBlobs {d : Digest}
    (h : d ∈ manifest.stderrDigest.toList ++ manifest.stdoutDigest.toList ++
      manifest.files.filterMap ManifestFile.digest) :
    (servingBlobs manifest).get d = some (.inline []) := by
  have hs : ((servingBlobs manifest).reverse.find? (fun b => b.1 == d)).isSome := by
    rw [find?_isSome]
    refine ⟨(d, .inline []), ?_, beq_self_eq_true d⟩
    rw [mem_reverse]
    exact mem_map_of_mem h
  obtain ⟨b, hb⟩ := Option.isSome_iff_exists.mp hs
  have hm := mem_reverse.mp (mem_of_find?_eq_some hb)
  obtain ⟨_, -, rfl⟩ := mem_map.mp hm
  simp [Blobs.get, hb]

lemma hydrateStdio_serving (rd : PathBuf → Except StorageError Bytes) (bs : Blobs)
    (b : Option Bytes) (di : Option Digest) (h : ∀ d ∈ di, bs.get d = some (.inline [])) :
    ∃ r, hydrateStdio rd bs b di = .ok r ∧ resolved r di := by
  cases b with
  | some b => exact ⟨some b, rfl, rfl⟩
  | none =>
    cases di with
    | none => exact ⟨none, rfl, rfl⟩
    | some di =>
      refine ⟨some [], ?_, rfl⟩
      simp [hydrateStdio, h di rfl, BlobContent.readBytes, Except.map]

lemma hydrateManifest_serving (rd : PathBuf → Except StorageError Bytes)
    (manifest : Manifest) : ∃ hydrated,
      hydrateManifest rd (.ok (servingBlobs manifest)) [] manifest = .ok (some hydrated) := by
  obtain ⟨st, her, hr⟩ := hydrateStdio_serving rd
    (servingBlobs manifest) manifest.stderrBytes manifest.stderrDigest
    (fun d hd => get_servingBlobs (by simp_all))
  obtain ⟨stdout, ho, hrt⟩ := hydrateStdio_serving rd
    (servingBlobs manifest) manifest.stdoutBytes manifest.stdoutDigest
    (fun d hd => get_servingBlobs (by simp_all))
  let hydrated : Manifest := { manifest with
    stderrBytes := st
    stdoutBytes := stdout
    files := manifest.files.map (ManifestFile.hydrate (servingBlobs manifest)) }
  have hst : manifest.hydrate rd (servingBlobs manifest) = .ok hydrated := by
    simp only [hydrate, her, ho]
    rfl
  have hf : hydrated.files.all (fun f =>
      f.sourcePath.isSome || resolved f.bytes f.digest) := by
    rw [all_map, all_eq_true]
    intro f hfl
    simp only [Function.comp, ManifestFile.hydrate]
    split_ifs with hdn
    · rcases Bool.or_eq_true_iff.mp hdn with hb | hs
      · simp [resolved, hb]
      · simp [hs]
    · cases hd : f.digest with
      | none => simp [resolved, hd]
      | some di =>
        have hg : (servingBlobs manifest).get di = some (.inline []) :=
          get_servingBlobs (mem_append_right _ (mem_filterMap.mpr ⟨f, hfl, hd⟩))
        simp [resolved, hg]
  have hdn : hydrated.isHydrated := by
    rw [isHydrated, hr, hrt, hf]
    rfl
  refine ⟨hydrated, ?_⟩
  change (manifest.hydrate rd (servingBlobs manifest) >>= fun m =>
    hydrateFromOthers rd [] m >>= fun m =>
      pure (if m.isHydrated = true then some m else none)) = _
  rw [hst]
  simp [bind, Except.bind, hydrateFromOthers, hdn, pure, Except.pure]

lemma hydrateAndUnpack_created (hydrater : OutputHydrater) (env : HydrateEnv)
    (useLocal useRemote : Bool) (manifest : Manifest) :
    (hydrater.hydrateAndUnpack env useLocal useRemote manifest).1 ⊆
      (unpack ⟨hydrater.workspaceRoot, env.fsWrite⟩ manifest).1 := by
  unfold OutputHydrater.hydrateAndUnpack
  cases hm : hydrateManifest env.readFileBytes env.originalBlobs
      (env.otherBlobs useLocal useRemote) manifest with
  | error error => exact nil_subset _
  | ok r =>
    cases r with
    | none => exact nil_subset _
    | some hydrated =>
      rw [← (hydrateManifest_sameOutputs hm).unpack_eq]
      dsimp only
      split <;> exact fun o h => h

lemma hydrateTaskOutputs_created (hydrater : OutputHydrater) (env : HydrateEnv)
    (response : Except TaskRunnerError Unit) (useLocal useRemote : Bool) (manifest : Manifest) :
    (hydrater.hydrateTaskOutputs env response useLocal useRemote manifest).1 ⊆
      (unpack ⟨hydrater.workspaceRoot, env.fsWrite⟩ manifest).1 := by
  have hs := hydrateAndUnpack_created hydrater env useLocal useRemote manifest
  unfold OutputHydrater.hydrateTaskOutputs
  cases response with
  | error error => exact nil_subset _
  | ok _ =>
    dsimp only
    split <;> rename_i heq <;> rw [heq] at hs <;> exact hs

variable {hydrater : OutputHydrater} {s : ManifestSource} {state : TaskRunState}
  {env : HydrateEnv} {hash : String}

/-- Nothing is created before validation has passed, and then only what unpacking the
source's own manifest creates. -/
lemma hydrate_created (h : o ∈ (hydrater.hydrate env (.storage s) hash state).1) :
    hydrater.validateOutputPaths s.manifest = .ok () ∧
      o ∈ (unpack ⟨hydrater.workspaceRoot, env.fsWrite⟩ s.manifest).1 := by
  unfold OutputHydrater.hydrate at h
  dsimp only at h
  split_ifs at h
  · cases h
  · cases h
  · cases hv : hydrater.validateOutputPaths s.manifest with
    | error error => simp [hv] at h
    | ok _ =>
      cases hd : OutputHydrater.deleteExistingOutputs env with
      | error error => simp [hv, hd] at h
      | ok _ =>
        simp only [hv, hd] at h
        refine ⟨rfl, ?_⟩
        cases hdm : env.daemon with
        | none =>
          rw [hdm] at h
          exact hydrateAndUnpack_created _ _ _ _ _ h
        | some response =>
          rw [hdm] at h
          exact hydrateTaskOutputs_created _ _ _ _ _ _ h

lemma validateOutputPath_ok_iff (hydrater : OutputHydrater) (r : WorkspaceRelativePath) :
    hydrater.validateOutputPath r = .ok () ↔
      (∃ o ∈ hydrater.task.outputFiles, o.1.components <+: r.components) ∨
      (hydrater.task.outputGlobs ≠ [] ∧ hydrater.taskOutputGlobset r) := by
  have heq (o : WorkspaceRelativePath × TaskFileOutput) (h : o.1.eq r) :
      o.1.components <+: r.components := by
    rw [beq_iff_eq.mp h]
  unfold OutputHydrater.validateOutputPath
  split_ifs with hf hd hg
  · obtain ⟨o, hm, h⟩ := any_eq_true.mp hf
    simp only [true_iff]
    exact .inl ⟨o, hm, heq o h⟩
  · obtain ⟨o, hm, h⟩ := any_eq_true.mp hd
    simp only [true_iff]
    exact .inl ⟨o, hm, isPrefixOf_iff_prefix.mp h⟩
  · simp only [true_iff]
    simp only [Bool.and_eq_true, Bool.not_eq_true', isEmpty_eq_false_iff] at hg
    exact .inr hg
  · simp only [false_iff, not_or, not_exists, not_and]
    constructor
    · intro o hm hs
      exact hd (any_eq_true.mpr ⟨o, hm, isPrefixOf_iff_prefix.mpr hs⟩)
    · intro hn hmt
      simp [hn, hmt] at hg

/-- Where a path of the workspace leads once its `..` are resolved. -/
def logicalLocation (root : WorkspaceRoot) (path : WorkspaceRelativePath) : PathBuf :=
  ⟨true, resolveComponents root.path.components path.components⟩

/-- What validation asks of a path, by its components as they are written. -/
def Admits (hydrater : OutputHydrater) (path : WorkspaceRelativePath) : Prop :=
  (∃ output ∈ hydrater.task.outputFiles, output.1.components <+: path.components) ∨
  (hydrater.task.outputGlobs ≠ [] ∧ hydrater.taskOutputGlobset path = true)

/-- The same of where the path and the outputs lead. -/
def Covers (hydrater : OutputHydrater) (path : WorkspaceRelativePath) : Prop :=
  let location := logicalLocation hydrater.workspaceRoot path
  (∃ output ∈ hydrater.task.outputFiles,
    (logicalLocation hydrater.workspaceRoot output.1).components <+: location.components) ∨
  (hydrater.task.outputGlobs ≠ [] ∧
    hydrater.taskOutputGlobset (relativeTo hydrater.workspaceRoot location) = true)

/-- The paths of the files and symlinks in their order, up to the first that leads out of the
workspace. -/
def unpackedPaths (root : WorkspaceRoot) (manifest : Manifest) : List WorkspaceRelativePath :=
  let unpacker : ManifestUnpacker := ⟨root, fun _ => true⟩
  let files := (manifest.files.filter (fun file => file.digest.isSome)).map
    (fun file => (file.path, unpacker.resolveAbsPath file.path))
  let symlinks := manifest.symlinks.map (fun link => (link.path, unpacker.resolveLink link))
  ((files ++ symlinks).takeWhile (fun entry => entry.2.isOk)).map Prod.fst

lemma unpackedPaths_eq (root : WorkspaceRoot) (manifest : Manifest) :
    unpackedPaths root manifest =
      (unpack ⟨root, fun _ => true⟩ manifest).1.map CreatedOutput.path := by
  have hc (es : List (WorkspaceRelativePath × Except ManifestError PathBuf)) :
      (es.takeWhile (fun entry => entry.2.isOk)).map Prod.fst =
        (createAll ⟨root, fun _ => true⟩ es).1.map CreatedOutput.path := by
    induction es with
    | nil => rfl
    | cons e es ih =>
      obtain ⟨path, r⟩ := e
      cases r with
      | error error => rfl
      | ok l => exact congrArg (cons path) ih
  exact hc _

lemma declaredLocation_iff {f : PathBuf → Bool}
    (h : resolveAbsPath ⟨hydrater.workspaceRoot, f⟩ r = .ok l) :
    DeclaredLocation hydrater l ↔ Covers hydrater r := by
  obtain ⟨hrt, hl, -⟩ := resolveAbsPath_ok h
  have ho (output : WorkspaceRelativePath) :
      cleanComponents (output.toLogicalPath hydrater.workspaceRoot.path) =
        logicalLocation hydrater.workspaceRoot output := by
    rw [toLogicalPath_eq, hydrater.workspaceRoot.absolute, cleanComponents_absolute,
      resolveComponents_of_resolved [] (resolved_resolveComponents hrt _), nil_append]
    rfl
  have hll : l = logicalLocation hydrater.workspaceRoot r := hl
  unfold DeclaredLocation Covers
  simp [ho, hll, PathBuf.startsWith, logicalLocation]

/-- A task's hydration of a manifest stays inside its declared outputs iff validation refuses the
manifest, or every path that is unpacked is covered by an output where it leads, too. -/
theorem hydrate_creates_declared_iff (hydrater : OutputHydrater) (manifest : Manifest) :
    (∀ (env : HydrateEnv) (remote : Bool) (hash : String) (state : TaskRunState),
      ∀ output ∈ (hydrater.hydrate env (.storage ⟨manifest, remote⟩) hash state).1,
        DeclaredLocation hydrater output.location) ↔
    ((∀ path ∈ manifest.outputPaths, Admits hydrater path) →
      ∀ path ∈ unpackedPaths hydrater.workspaceRoot manifest, Covers hydrater path) := by
  have hvalid : hydrater.validateOutputPaths manifest = .ok () ↔
      ∀ path ∈ manifest.outputPaths, Admits hydrater path := by
    unfold OutputHydrater.validateOutputPaths
    rw [forM_eq_ok]
    simp only [validateOutputPath_ok_iff]
    rfl
  rw [← hvalid, unpackedPaths_eq]
  constructor
  · intro h hv path hp
    obtain ⟨output, ho, rfl⟩ := mem_map.mp hp
    -- the remote backend has all the blobs, and every write succeeds
    let env : HydrateEnv := { originalBlobs := .ok (servingBlobs manifest) }
    let state : TaskRunState := { remoteCacheReadable := true }
    obtain ⟨hydrated, hh⟩ := hydrateManifest_serving env.readFileBytes manifest
    have hu : (hydrater.hydrate env (.storage ⟨manifest, true⟩) "" state).1 =
        (unpack ⟨hydrater.workspaceRoot, fun _ => true⟩ manifest).1 := by
      rw [← (hydrateManifest_sameOutputs hh).unpack_eq]
      simp only [OutputHydrater.hydrate, OutputHydrater.hydrateAndUnpack, hv, hh,
        OutputHydrater.deleteExistingOutputs, Except.map, env, state]
      cases (unpack ⟨hydrater.workspaceRoot, fun _ => true⟩ hydrated).2 <;> rfl
    exact (declaredLocation_iff (mem_unpack ho).2).mp (h env true "" state output (hu ▸ ho))
  · intro h env remote hash state output ho
    obtain ⟨hv, hc⟩ := hydrate_created ho
    apply (declaredLocation_iff (mem_unpack hc).2).mpr
    exact h hv _ (mem_map_of_mem (createAll_subset _ _ _ hc))

/-- The output `dist` admits a path that starts in `dist` and is written to `src`. -/
theorem dist_parent_path_written_to_src :
    let hydrater : OutputHydrater :=
      { task := { target := Target.new "app" "build", outputFiles := [(⟨["dist"]⟩, {})] }
        workspaceRoot := ⟨⟨true, [.normal "ws"]⟩, rfl⟩
        taskOutputGlobset := fun _ => false }
    let manifest : Manifest :=
      { files := [{ path := ⟨["dist", "..", "src", "main.rs"]⟩
                    bytes := some []
                    digest := some ⟨"abc", 0⟩ }] }
    let l : PathBuf := ⟨true, [.normal "ws", .normal "src", .normal "main.rs"]⟩
    hydrater.hydrate {} (.storage ⟨manifest, true⟩) "abc" { remoteCacheReadable := true } =
        ([⟨⟨["dist", "..", "src", "main.rs"]⟩, l⟩], .ok (.hitFromStorage manifest true)) ∧
      ¬ DeclaredLocation hydrater l := by
  decide

/-- A normalized path at or below the root. -/
structure Inside (root : WorkspaceRoot) (path : PathBuf) : Prop where
  absolute : path.root = true
  normalized : Resolved path.components
  below : root.path.components <+: path.components

/-- A relative path that leads below the root, after whatever `..` it has. -/
def Contained (root : WorkspaceRoot) (path : WorkspaceRelativePath) : Prop :=
  path.hasRoot = false ∧
    root.path.components <+: resolveComponents root.path.components path.components

variable {u : ManifestUnpacker} {r : WorkspaceRelativePath} {l : PathBuf}

lemma inside_of_resolves (h : u.resolveAbsPath r = .ok l) :
    Inside u.workspaceRoot l ∧ Contained u.workspaceRoot r := by
  obtain ⟨hr, rfl, hb⟩ := resolveAbsPath_ok h
  have hh : r.hasRoot = false := by
    by_contra hn
    rw [resolveAbsPath, if_pos (eq_true_of_ne_false hn)] at h
    cases h
  exact ⟨⟨rfl, resolved_resolveComponents hr _, hb⟩, hh, hb⟩

lemma resolveLink_ok {link : ManifestSymlink} (h : u.resolveLink link = .ok l) :
    u.resolveAbsPath link.path = .ok l ∧ ∃ t, u.resolveAbsPath link.target = .ok t := by
  obtain ⟨output, ho, h⟩ := bind_eq_ok h
  cases ht : u.resolveAbsPath link.target with
  | error error => simp [ht] at h
  | ok t =>
    simp only [ht, Except.ok.injEq] at h
    exact ⟨h ▸ ho, t, rfl⟩

lemma createAll_error {es : List (WorkspaceRelativePath × Except ManifestError PathBuf)}
    {p : WorkspaceRelativePath} {e : ManifestError} (h : (p, .error e) ∈ es) :
    ∃ error, (u.createAll es).2 = .error error := by
  induction es with
  | nil => cases h
  | cons entry es ih =>
    obtain ⟨path, location⟩ := entry
    cases location with
    | error error => exact ⟨error, rfl⟩
    | ok location =>
      rw [createAll]
      split_ifs
      · exact ih ((mem_cons.mp h).resolve_left (by simp))
      · exact ⟨_, rfl⟩

/-- Everything that is created is a file or a symlink of the manifest and lies inside the root, and
so does what a symlink is linked to. An entry that leads elsewhere makes unpacking fail. -/
theorem unpack_stays_inside (unpacker : ManifestUnpacker) (manifest : Manifest) :
    (∀ output ∈ (unpacker.unpack manifest).1, Inside unpacker.workspaceRoot output.location ∧
      unpacker.resolveAbsPath output.path = .ok output.location ∧
      ((∃ file ∈ manifest.files, file.digest.isSome = true ∧ file.path = output.path) ∨
        ∃ link ∈ manifest.symlinks, link.path = output.path ∧
          ∃ target, unpacker.resolveAbsPath link.target = .ok target ∧
            Inside unpacker.workspaceRoot target)) ∧
      ((∃ file ∈ manifest.files, file.digest.isSome = true ∧
          ¬ Contained unpacker.workspaceRoot file.path) ∨
        (∃ link ∈ manifest.symlinks, ¬ Contained unpacker.workspaceRoot link.path ∨
          ¬ Contained unpacker.workspaceRoot link.target) →
        ∃ error, (unpacker.unpack manifest).2 = .error error) := by
  constructor
  · intro output h
    obtain ⟨-, hr⟩ := mem_unpack h
    refine ⟨(inside_of_resolves hr).1, hr, ?_⟩
    rcases mem_append.mp (mem_createAll h) with hf | hl
    · obtain ⟨file, hf, he⟩ := mem_map.mp hf
      obtain ⟨hm, hd⟩ := mem_filter.mp hf
      exact .inl ⟨file, hm, hd, (Prod.mk.inj he).1⟩
    · obtain ⟨link, hm, he⟩ := mem_map.mp hl
      obtain ⟨hp, he⟩ := Prod.mk.inj he
      obtain ⟨-, target, ht⟩ := resolveLink_ok he
      exact .inr ⟨link, hm, hp, target, ht, (inside_of_resolves ht).1⟩
  · rintro (⟨file, hm, hd, hn⟩ | ⟨link, hm, hn⟩)
    · cases hr : unpacker.resolveAbsPath file.path with
      | ok lo => exact absurd (inside_of_resolves hr).2 hn
      | error error =>
        refine createAll_error (mem_append_left _ (mem_map.mpr ⟨file, ?_, congrArg _ hr⟩))
        exact mem_filter.mpr ⟨hm, hd⟩
    · cases hr : unpacker.resolveLink link with
      | ok lo =>
        obtain ⟨hp, target, ht⟩ := resolveLink_ok hr
        rcases hn with hn | hn
        · exact absurd (inside_of_resolves hp).2 hn
        · exact absurd (inside_of_resolves ht).2 hn
      | error error =>
        exact createAll_error (mem_append_right _ (mem_map.mpr ⟨link, hm, congrArg _ hr⟩))

end Moon.Proofs
