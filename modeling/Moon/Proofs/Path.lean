import Mathlib.Data.List.Induction
import Moon.Path

/-!
# Lexical resolution of paths

`to_logical_path` and `clean_components` both walk the components of a path and let a `..`
remove the directory before it.
-/

namespace Moon.Proofs

open List

variable (dir : List Component)

def resolveComponent : Component → List Component
  | .curDir => dir
  | .parentDir => dir.dropLast
  | .normal name => dir ++ [.normal name]

variable (cs : List Component)

def resolveComponents : List Component := cs.foldl resolveComponent dir

def Resolved : Prop := ∀ component ∈ cs, ∃ name, component = .normal name

lemma resolved_nil : Resolved [] := by
  intro component h
  cases h

lemma Resolved.left {l₁ l₂ : List Component} (h : l₁ <+: l₂) (hr : Resolved l₂) : Resolved l₁ :=
  fun c hc => hr c (h.subset hc)

lemma resolved_resolveComponents {dir : List Component} (h : Resolved dir)
    (cs : List Component) : Resolved (resolveComponents dir cs) := by
  induction cs generalizing dir with
  | nil => exact h
  | cons co cs ih =>
    refine ih ?_
    cases co with
    | curDir => exact h
    | parentDir => exact h.left dir.dropLast_prefix
    | normal n =>
      intro c hc
      rcases mem_append.mp hc with hd | hn
      · exact h c hd
      · exact ⟨n, mem_singleton.mp hn⟩

lemma resolveComponents_of_resolved {cs : List Component} (h : Resolved cs) :
    resolveComponents dir cs = dir ++ cs := by
  induction cs generalizing dir with
  | nil => simp [resolveComponents]
  | cons co cs ih =>
    obtain ⟨n, rfl⟩ := h co mem_cons_self
    have hr : Resolved cs := fun c hc => h c (mem_cons_of_mem _ hc)
    have := ih (dir ++ [.normal n]) hr
    rw [append_assoc] at this
    exact this

lemma toLogicalPath_eq (p : WorkspaceRelativePath) (relativeTo : PathBuf) :
    p.toLogicalPath relativeTo =
      ⟨relativeTo.root, resolveComponents relativeTo.components p.components⟩ := by
  unfold WorkspaceRelativePath.toLogicalPath resolveComponents
  generalize p.components = cs
  induction cs generalizing relativeTo with
  | nil => rfl
  | cons c cs ih =>
    rw [foldl_cons, foldl_cons, ih]
    cases c <;> rfl

def relativeTo (root : WorkspaceRoot) (location : PathBuf) : WorkspaceRelativePath :=
  let names := (location.components.drop root.path.components.length).map Component.asStr
  ⟨if names.isEmpty then [""] else names⟩

/-- The place that a path leads to from a directory. The root is its own parent. -/
def located (dir : List String) (path : PathBuf) : List Component :=
  resolveComponents (if path.root then [] else dir.map .normal) path.components

/-- A `.` is the whole path, and any `..` stand first in a relative one. -/
structure CleanPath (path : PathBuf) : Prop where
  current : .curDir ∈ path.components → path = ⟨false, [.curDir]⟩
  parents : .parentDir ∈ path.components → path.root = false ∧
    ∃ k names, path.components = replicate k .parentDir ++ names ∧ .parentDir ∉ names

section

variable {root : Bool} {k l m : Nat} {ns a b : List Component}

lemma resolveComponents_parents (hr : Resolved ns) (k : Nat) :
    resolveComponents dir (replicate k .parentDir ++ ns) = dir.take (dir.length - k) ++ ns := by
  induction k generalizing dir with
  | zero => simpa using resolveComponents_of_resolved dir hr
  | succ k ih =>
    refine (ih dir.dropLast).trans ?_
    rw [length_dropLast, dropLast_eq_take, take_take]
    congr 2
    omega

/-- The root is the one component that is counted but not listed. -/
def cleanedTo (root : Bool) (k : Nat) (names : List Component) : CleanState :=
  ⟨⟨root, replicate k .parentDir ++ names⟩, k, k + names.length + root.toNat⟩

/-- The parents that lead are counted, only names come after them, and none is above the root. -/
lemma cleanComponent_cleanedTo (hr : Resolved ns) (hk : root → k = 0) (c : Component) :
    ∃ k' ns', cleanComponent (cleanedTo root k ns) c = cleanedTo root k' ns' ∧ Resolved ns' ∧
      (root → k' = 0) ∧ ∀ dir, located dir ⟨root, replicate k' .parentDir ++ ns'⟩ =
        resolveComponent (located dir ⟨root, replicate k .parentDir ++ ns⟩) c := by
  cases c with
  | curDir => exact ⟨k, ns, rfl, hr, hk, fun _ => rfl⟩
  | normal n =>
    refine ⟨k, ns ++ [.normal n], ?_, resolved_resolveComponents hr [.normal n], hk, fun dir => ?_⟩
    · simp [cleanedTo, cleanComponent, PathBuf.push, Nat.add_assoc, Nat.add_comm 1]
    · simp [located, resolveComponents, resolveComponent]
  | parentDir =>
    rcases eq_nil_or_concat' ns with rfl | ⟨front, last, rfl⟩
    · cases root with
      | true =>
        obtain rfl := hk rfl
        exact ⟨0, [], rfl, hr, hk, fun _ => rfl⟩
      | false =>
        refine ⟨k + 1, [], ?_, hr, fun h => (by cases h), fun dir => ?_⟩
        · simp [cleanedTo, cleanComponent, PathBuf.push, replicate_succ']
        · simp [located, resolveComponents, resolveComponent, replicate_succ']
    · -- the name that is entered is left again
      obtain ⟨n, rfl⟩ := hr last (by simp)
      refine ⟨k, front, ?_, hr.left (prefix_append _ _), hk, fun dir => ?_⟩
      · cases root with
        | true => simp [cleanedTo, cleanComponent, PathBuf.pop, hk rfl]
        | false => simp [cleanedTo, cleanComponent, PathBuf.pop]
      · simp [located, resolveComponents, resolveComponent]

lemma foldl_cleanComponent_cleanedTo (hr : Resolved ns) (hk : root → k = 0) (cs : List Component) :
    ∃ k' ns', cs.foldl cleanComponent (cleanedTo root k ns) = cleanedTo root k' ns' ∧
      Resolved ns' ∧ (root → k' = 0) ∧ ∀ dir, located dir ⟨root, replicate k' .parentDir ++ ns'⟩ =
        resolveComponents (located dir ⟨root, replicate k .parentDir ++ ns⟩) cs := by
  induction cs generalizing k ns with
  | nil => exact ⟨k, ns, rfl, hr, hk, fun _ => rfl⟩
  | cons c cs ih =>
    obtain ⟨k₁, ns₁, hs, hr₁, hk₁, hd₁⟩ := cleanComponent_cleanedTo hr hk c
    obtain ⟨k₂, ns₂, hf, hr₂, hk₂, hd₂⟩ := ih hr₁ hk₁
    refine ⟨k₂, ns₂, by rw [foldl_cons, hs, hf], hr₂, hk₂, fun dir => ?_⟩
    rw [hd₂ dir, hd₁ dir]
    rfl

/-- The form of a cleaned path, and where the path leads to. -/
lemma cleanComponents_form (path : PathBuf) :
    ∃ k ns, Resolved ns ∧ (path.root → k = 0) ∧
      cleanComponents path = ⟨path.root, if path.root = false ∧ k = 0 ∧ ns = [] then [.curDir]
        else replicate k .parentDir ++ ns⟩ ∧
      ∀ dir, located dir path =
        (if path.root then [] else (dir.map .normal).take (dir.length - k)) ++ ns := by
  obtain ⟨root, cs⟩ := path
  obtain ⟨k, ns, hf, hn, hk, hd⟩ :=
    foldl_cleanComponent_cleanedTo resolved_nil (fun _ : root => rfl) cs
  refine ⟨k, ns, hn, hk, ?_, fun dir => ?_⟩
  · have hc : cs.foldl cleanComponent ⟨⟨root, []⟩, 0, if root then 1 else 0⟩ =
        cleanedTo root k ns := by
      rw [← hf]
      cases root <;> rfl
    simp only [cleanComponents, hc]
    cases root <;> by_cases hz : k = 0 ∧ ns = [] <;> simp [cleanedTo, PathBuf.push, hz]
  · refine (hd dir).symm.trans ?_
    unfold located
    rw [resolveComponents_parents _ hn]
    cases root <;> simp

lemma cleanComponents_absolute : cleanComponents ⟨true, cs⟩ = ⟨true, resolveComponents [] cs⟩ := by
  obtain ⟨k, ns, -, hk, hc, hl⟩ := cleanComponents_form ⟨true, cs⟩
  have hn : resolveComponents [] cs = ns := hl []
  simpa [hk rfl, hn] using hc

lemma located_clean (dir : List String) (path : PathBuf) :
    located dir (cleanComponents path) = located dir path := by
  obtain ⟨k, ns, hn, hk, hc, hl⟩ := cleanComponents_form path
  rw [hc, hl dir]
  cases hp : path.root with
  | true => simpa [located, hk hp, hp] using resolveComponents_of_resolved [] hn
  | false =>
    have hd := resolveComponents_parents (dir.map .normal) hn k
    rw [length_map] at hd
    by_cases hz : k = 0 ∧ ns = []
    · simp [located, resolveComponents, resolveComponent, hz, take_of_length_le]
    · simpa [located, hz] using hd

/-- Two names tell apart how much is kept of a directory. -/
lemma eq_of_replicate_append
    (h : ∀ name, replicate l (Component.normal name) ++ a = replicate m (.normal name) ++ b) :
    l = m ∧ a = b := by
  wlog hl : l ≤ m generalizing l m a b
  · exact (this (fun name => (h name).symm) (Nat.le_of_not_le hl)).imp Eq.symm Eq.symm
  obtain ⟨d, rfl⟩ := Nat.exists_eq_add_of_le hl
  have hs : ∀ name, a = replicate d (.normal name) ++ b := by
    intro name
    have he := h name
    rw [replicate_add, append_assoc] at he
    exact append_cancel_left he
  cases d with
  | zero => exact ⟨rfl, hs ""⟩
  | succ d =>
    have hab := (hs "a").symm.trans (hs "b")
    simp [replicate_succ] at hab

lemma cleanComponents_eq_of_located {p q : PathBuf} (h : ∀ dir, located dir p = located dir q) :
    cleanComponents p = cleanComponents q := by
  obtain ⟨k, ns, -, hk, hp, hlp⟩ := cleanComponents_form p
  obtain ⟨k', ns', -, hk', hq, hlq⟩ := cleanComponents_form q
  have hn := eq_of_replicate_append (a := ns) (b := ns')
    (l := if p.root then 0 else k' + 1) (m := if q.root then 0 else k + 1) (fun name => ?_)
  · obtain ⟨hm, rfl⟩ := hn
    cases hr : p.root <;> cases hr' : q.root <;> simp_all
  · have he := h (replicate (k + k' + 1) name)
    rw [hlp, hlq] at he
    have hs : k + k' + 1 - k = k' + 1 ∧ k + k' + 1 - k' = k + 1 := by omega
    cases hr : p.root <;> cases hr' : q.root <;> simpa [hr, hr', hs, take_replicate] using he

lemma located_push (dir : List String) (path : PathBuf) (cs : List Component) :
    located dir (cs.foldl PathBuf.push path) = resolveComponents (located dir path) cs := by
  induction cs generalizing path with
  | nil => rfl
  | cons c cs ih => exact (ih _).trans (congrArg (resolveComponents · cs) foldl_append)

lemma cleanPath_clean (path : PathBuf) : CleanPath (cleanComponents path) := by
  obtain ⟨k, ns, hn, hk, hc, -⟩ := cleanComponents_form path
  have hno : .curDir ∉ ns ∧ .parentDir ∉ ns := by
    constructor <;> intro hm <;> obtain ⟨_, he⟩ := hn _ hm <;> cases he
  rw [hc]
  split_ifs with hz
  · exact ⟨fun _ => by rw [hz.1], fun h => by simp at h⟩
  · refine ⟨fun h => ?_, fun h => ⟨?_, k, ns, rfl, hno.2⟩⟩
    · simp [hno.1] at h
    · cases hr : path.root with
      | false => rfl
      | true => simp [hk hr, hno.2] at h

end

/-- A path is cleaned to a form that is kept, leads to the same place from every directory, and
is the same for another path exactly if that one leads there too. -/
theorem clean_components_normalizes (path : PathBuf) :
    cleanComponents (cleanComponents path) = cleanComponents path ∧
      CleanPath (cleanComponents path) ∧
      (∀ dir, located dir (cleanComponents path) = located dir path) ∧
      Equivalence (fun left right => pathsAreEqual left right = true) ∧
      ∀ other, pathsAreEqual path other = true ↔ ∀ dir, located dir path = located dir other := by
  have he : ∀ p q, pathsAreEqual p q = true ↔ cleanComponents p = cleanComponents q :=
    fun p q => decide_eq_true_iff
  refine ⟨cleanComponents_eq_of_located (located_clean · path), cleanPath_clean path,
    (located_clean · path), ⟨fun p => (he p p).mpr rfl, fun h => ?_, fun h h' => ?_⟩,
    fun other => (he path other).trans ⟨fun h dir => ?_, cleanComponents_eq_of_located⟩⟩
  · exact (he _ _).mpr ((he _ _).mp h).symm
  · exact (he _ _).mpr (((he _ _).mp h).trans ((he _ _).mp h'))
  · rw [← located_clean, h, located_clean]

/-- Cleaning a path before another one is joined to it makes no difference after the result is
cleaned. -/
theorem clean_before_join (path : PathBuf) (components : List Component) :
    cleanComponents (components.foldl PathBuf.push (cleanComponents path)) =
      cleanComponents (components.foldl PathBuf.push path) :=
  cleanComponents_eq_of_located (fun dir => by rw [located_push, located_push, located_clean])

end Moon.Proofs
