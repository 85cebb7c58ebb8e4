import Moon.Lib.Except
import Moon.Lib.Run
import Moon.WorkspaceCache

/-! # The digest of a cached graph -/

namespace Moon.Proofs

open Moon.Lib List CachedBuilder

section

variable {G : Type} (b : CachedBuilder G)

def BuiltFor (asyncGraphBuilding : Bool) (graph : G) (state : WorkspaceGraphCacheState) : Prop :=
  ∃ inputs, b.build asyncGraphBuilding inputs = .ok (graph, state.pluginInputPaths) ∧
    b.generateCacheDigest asyncGraphBuilding inputs state.pluginInputPaths = .ok state.lastHash

/-- A graph was built from inputs with the same digest, over the input files that the plugins named
when it was built. -/
def SameDigest (request : CacheRequest) (graph : G) : Prop :=
  ∃ inputs paths hash, b.build request.asyncGraphBuilding inputs = .ok (graph, paths) ∧
    b.generateCacheDigest request.asyncGraphBuilding inputs paths = .ok hash ∧
    b.generateCacheDigest request.asyncGraphBuilding request.inputs paths = .ok hash

def BetweenWrites (machine : GraphCacheMachine G) : Prop :=
  ∃ pending, machine.building = some pending ∧ pending.saved = true ∧
    pending.request.mode.isWritable = true

structure GraphCacheOk (machine : GraphCacheMachine G) : Prop where
  files : ∀ state entry, machine.stateFile = some state → machine.graphFile = some entry →
    BuiltFor b entry.1 entry.2 state ∨ BetweenWrites machine
  pending : ∀ pending, machine.building = some pending →
    BuiltFor b pending.request.asyncGraphBuilding pending.graph pending.state
  saved : ∀ pending, machine.building = some pending → pending.saved = true →
    pending.request.mode.isWritable = true → machine.stateFile = some pending.state
  loaded : ∀ entry ∈ machine.loaded, SameDigest b entry.1 entry.2

/-- Neither file is left behind beside an older one of the other kind, by a process that stops
between the writes or where the mode keeps the state from being written. -/
def KeepsPaired (machine : GraphCacheMachine G) : GraphCacheEvent → Prop
  | .stop => BetweenWrites machine → machine.graphFile = none
  | .writeGraph => ∀ pending, machine.building = some pending →
      pending.request.mode.isWritable = false → machine.stateFile = none
  | .request _ | .saveState => True

variable {b} {m m' : GraphCacheMachine G} {request : CacheRequest}

lemma hash_of_digest {a : Bool} {ins : WorkspaceInputs} {ps : Finset String} {hash : String}
    (h : b.generateCacheDigest a ins ps = .ok hash) :
    isContentHash hash ∧ hash = b.sha256 (graphFingerprint a ins ps) := by
  simp only [generateCacheDigest] at h
  split at h
  next hv =>
    cases h
    exact ⟨hv, rfl⟩
  · cases h

lemma readGraph_eq_some {hash l : String} {f : Option (Bool × G)} {g : G}
    (h : b.readGraph request hash l f = .ok (some g)) :
    hash = l ∧ f = some (request.asyncGraphBuilding, g) := by
  unfold readGraph at h
  split at h
  · cases h
  next a cached =>
    split at h
    next hh =>
      split at h
      next hk =>
        split at h
        · cases h
          exact ⟨hh, by rw [hk]⟩
        · cases h
      · cases h
    · cases h

lemma answer_spec {r : CacheAnswer G} (h : b.answer m request = .ok r) :
    (∃ g s, r = .loaded g ∧ m.stateFile = some s ∧
      m.graphFile = some (request.asyncGraphBuilding, g) ∧
      b.generateCacheDigest request.asyncGraphBuilding request.inputs
        s.pluginInputPaths = .ok s.lastHash) ∨
    (∃ g s, r = .built g s ∧ BuiltFor b request.asyncGraphBuilding g s) ∨
    ∃ g, r = .uncached g := by
  unfold answer at h
  split at h
  · obtain ⟨hash, hd, h⟩ := bind_eq_ok h
    obtain ⟨f, hrd, h⟩ := bind_eq_ok h
    cases f with
    | some g =>
      cases h
      obtain ⟨rfl, hf⟩ := readGraph_eq_some hrd
      refine .inl ⟨g, _, rfl, ?_, hf, hd⟩
      have hh := (hash_of_digest hd).1
      unfold loadState at hh ⊢
      cases hr : request.mode.isReadable with
      | false =>
        rw [hr] at hh
        cases hh
      | true =>
        cases hs : m.stateFile with
        | none =>
          rw [hr, hs] at hh
          cases hh
        | some s => rfl
    | none =>
      obtain ⟨⟨g, s⟩, hbl, h⟩ := bind_eq_ok h
      cases h
      refine .inr (.inl ⟨g, s, rfl, ?_⟩)
      obtain ⟨⟨built, paths⟩, hb, hs⟩ := bind_eq_ok hbl
      dsimp only at hs
      split at hs
      next hsm =>
        cases hs
        exact ⟨request.inputs, hsm ▸ hb, hd⟩
      next =>
        obtain ⟨has', hd', hs⟩ := bind_eq_ok hs
        cases hs
        exact ⟨request.inputs, hb, hd'⟩
  · obtain ⟨⟨g, paths⟩, -, h⟩ := bind_eq_ok h
    cases h
    exact .inr (.inr ⟨g, rfl⟩)

section

variable (hok : GraphCacheOk b m)
include hok

lemma GraphCacheOk.of_request (hi : m.building = none)
    (hs : b.step m (.request request) = some m') : GraphCacheOk b m' := by
  simp only [CachedBuilder.step, hi] at hs
  have hf : ∀ s e, m.stateFile = some s →
      m.graphFile = some e → BuiltFor b e.1 e.2 s := by
    intro s e hst hg
    obtain hb | ⟨p, hbl, -⟩ := hok.files s e hst hg
    · exact hb
    · rw [hi] at hbl
      cases hbl
  cases ha : b.answer m request with
  | error error =>
    rw [ha] at hs
    cases hs
    exact hok
  | ok r =>
    rw [ha] at hs
    obtain ⟨g, s, rfl, hst, hg, hd⟩ | ⟨g, s, rfl, hb⟩ | ⟨g, rfl⟩ := answer_spec ha
    · cases hs
      obtain ⟨ins, hbu, hh⟩ := hf s _ hst hg
      have hsm : SameDigest b request g := ⟨ins, s.pluginInputPaths, s.lastHash, hbu, hh, hd⟩
      exact ⟨fun s e hst hg => .inl (hf s e hst hg), by simp,
        by simp, forall_mem_cons.mpr ⟨hsm, hok.loaded⟩⟩
    · cases hs
      refine ⟨fun s e hst hg => .inl (hf s e hst hg), ?_, ?_, hok.loaded⟩
      · intro p hp
        cases hp
        exact hb
      · intro p hp hsv
        cases hp
        cases hsv
    · cases hs
      exact hok

lemma GraphCacheOk.of_saveState (hs : b.step m .saveState = some m') : GraphCacheOk b m' := by
  simp only [CachedBuilder.step] at hs
  split at hs
  next p hb =>
    split at hs
    · cases hs
    next hu =>
      cases hs
      refine ⟨fun s e hst hg => ?_, ?_, ?_, hok.loaded⟩
      · cases hm : p.request.mode.isWritable with
        | true => exact .inr ⟨{ p with saved := true }, rfl, rfl, hm⟩
        | false =>
          simp only [hm, Bool.false_eq_true, if_false] at hst
          obtain hbl | ⟨o, ho, hsv, -⟩ := hok.files s e hst hg
          · exact .inl hbl
          · rw [hb] at ho
            cases ho
            exact absurd hsv hu
      · intro o ho
        cases ho
        exact hok.pending p hb
      · intro o ho _ hm
        cases ho
        exact if_pos hm
  · cases hs

end

lemma GraphCacheOk.step {ev : GraphCacheEvent} (hok : GraphCacheOk b m) (hp : KeepsPaired m ev)
    (hs : b.step m ev = some m') : GraphCacheOk b m' := by
  cases ev with
  | request request =>
    cases hb : m.building with
    | none => exact hok.of_request hb hs
    | some p =>
      simp only [CachedBuilder.step, hb, Option.isSome_some, if_true] at hs
      cases hs
  | saveState => exact hok.of_saveState hs
  | writeGraph =>
    simp only [CachedBuilder.step] at hs
    split at hs
    next p hb =>
      split at hs
      next hsv =>
        cases hs
        refine ⟨fun s e hst hg => .inl ?_, by simp, by simp, hok.loaded⟩
        cases hg
        cases hm : p.request.mode.isWritable with
        | true =>
          have hf := hok.saved p hb hsv hm
          cases hf.symm.trans hst
          exact hok.pending p hb
        | false =>
          have hn := hp p hb hm
          cases hn.symm.trans hst
      · cases hs
    · cases hs
  | stop =>
    cases hs
    refine ⟨fun s e hst hg => .inl ?_, by simp, by simp, hok.loaded⟩
    obtain hbl | hbt := hok.files s e hst hg
    · exact hbl
    · have hn := hp hbt
      cases hn.symm.trans hg

end

/-- In every run in which the files stay paired, each graph that is loaded from the cache was built
from inputs with the digest of those it is loaded for. -/
theorem loaded_graphs_have_digest {G : Type} (builder : CachedBuilder G)
    (events : List GraphCacheEvent) (hpaired : Along builder.step KeepsPaired {} events)
    {machine : GraphCacheMachine G} (hrun : exec builder.step {} events = some machine) :
    ∀ entry ∈ machine.loaded, SameDigest builder entry.1 entry.2 := by
  have hs : GraphCacheOk builder {} := ⟨by simp, by simp, by simp, by simp⟩
  have hok : GraphCacheOk builder machine := exec_invariant_along
    (fun _ _ _ hok hc hst => hok.step hc hst) hs hpaired hrun
  exact hok.loaded

/-- A builder whose graph is the version of the CLI that it was built with, and a hash of two
values. -/
def versionBuilder : CachedBuilder String where
  sha256 fingerprint :=
    String.ofList (replicate 64 (if fingerprint.version = "1" then 'a' else 'b'))
  build _ ins := .ok ((ins.env "MOON_VERSION").getD "", ∅)
  cachedIds _ := ∅

def versionRequest (version : String) (mode : CacheMode) : CacheRequest :=
  { inputs := { env := fun key => if key = "MOON_VERSION" then some version else none }
    mode := mode }

def writtenRequest (version : String) (mode : CacheMode) : List GraphCacheEvent :=
  [.request (versionRequest version mode), .saveState, .writeGraph]

theorem version_one_is_loaded : ∃ machine, exec versionBuilder.step {}
        (writtenRequest "1" .readWrite ++ [.request (versionRequest "1" .readWrite)]) =
      some machine ∧ machine.loaded = [(versionRequest "1" .readWrite, "1")] ∧
      ∀ entry ∈ machine.loaded, SameDigest versionBuilder entry.1 entry.2 := by
  refine ⟨_, rfl, rfl, ?_⟩
  apply loaded_graphs_have_digest versionBuilder
    (writtenRequest "1" .readWrite ++ [.request (versionRequest "1" .readWrite)])
  · refine Along.cons trivial rfl (Along.cons trivial rfl (Along.cons ?_ rfl
      (Along.cons trivial rfl trivial)))
    intro p hp hm
    cases hp
    cases hm
  · rfl

lemma not_sameDigest_version {v g : String} {mode : CacheMode} (h : ¬(g = "1" ↔ v = "1")) :
    ¬SameDigest versionBuilder (versionRequest v mode) g := by
  rintro ⟨ins, paths, hash, hb, hd, hcr⟩
  have hg : (ins.env "MOON_VERSION").getD "" = g := by
    cases hb
    rfl
  have hc : replicate 64 (if g = "1" then 'a' else 'b') =
      replicate 64 (if v = "1" then 'a' else 'b') := by
    have hh := (hash_of_digest hd).2
    rw [(hash_of_digest hcr).2] at hh
    have hl := String.ofList_injective hh
    rw [← hg]
    exact hl.symm
  have hch := (replicate_right_inj (by decide)).mp hc
  by_cases hg : g = "1" <;> by_cases hv : v = "1" <;>
    simp [hg, hv] at h hch

/-- A process that stops between the writes leaves a graph of another digest behind, and so does
a mode in which the state is not saved. -/
theorem stale_graph_is_loaded :
    (∃ machine, exec versionBuilder.step {} (writtenRequest "1" .readWrite ++
        [.request (versionRequest "2" .readWrite), .saveState, .stop,
          .request (versionRequest "2" .readWrite)]) = some machine ∧
      machine.loaded = [(versionRequest "2" .readWrite, "1")] ∧
      ¬SameDigest versionBuilder (versionRequest "2" .readWrite) "1") ∧
    ∃ machine, exec versionBuilder.step {} (writtenRequest "1" .readWrite ++
        writtenRequest "2" .read ++ [.request (versionRequest "1" .readWrite)]) = some machine ∧
      machine.loaded = [(versionRequest "1" .readWrite, "2")] ∧
      ¬SameDigest versionBuilder (versionRequest "1" .readWrite) "2" :=
  ⟨⟨_, rfl, rfl, not_sameDigest_version (by decide)⟩,
    ⟨_, rfl, rfl, not_sameDigest_version (by decide)⟩⟩

end Moon.Proofs
