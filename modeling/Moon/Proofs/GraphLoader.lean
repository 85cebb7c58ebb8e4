import Moon.GraphLoader
import Moon.Lib.Except

/-!
# What the loaders load

Whatever is in the cycle set is being loaded, so it leads to the node whose dependencies are
looped over.
-/

namespace Moon.Proofs

open Moon.Lib Relation List

section

variable {K D S E : Type} {spec : LoaderSpec K D S E} {Inv : S → Prop}
  {Settled : S → K → D → Prop} {loading a : Loading K S} {id : K} {ids : List K}

variable (spec) in
def Loads (id other : K) : Prop :=
  spec.configured id = true ∧ ∃ dep ∈ spec.dependencies id, spec.resolve dep = other

variable (Settled) in
def Keeps (links links' : S) : Prop := ∀ id dep, Settled links id dep → Settled links' id dep

variable (spec Inv Settled) in
/-- A dependency is settled by linking it, or by what is done about one that is being loaded. -/
structure LinkSpec : Prop where
  configured : ∀ id, spec.configured id = true → ∀ dep ∈ spec.dependencies id,
    spec.configured (spec.resolve dep) = true
  named : ∀ dep cycle, (∀ k ∈ cycle, spec.configured k = true) →
    spec.isNamed dep cycle = true → spec.resolve dep ∈ cycle
  back : ∀ id, spec.configured id = true → ∀ dep ∈ spec.dependencies id, ∀ nodes links,
    ReflTransGen (Loads spec) (spec.resolve dep) id → spec.resolve dep ∈ nodes → Inv links →
    Inv (spec.back nodes id dep links) ∧ Settled (spec.back nodes id dep links) id dep ∧
      Keeps Settled links (spec.back nodes id dep links)
  link : ∀ id, spec.configured id = true → ∀ dep ∈ spec.dependencies id, ∀ links, Inv links →
    ∃ ls', spec.link id dep links = .ok ls' ∧ Inv ls' ∧ Settled ls' id dep ∧ Keeps Settled links ls'
  unnamed : ∀ id, spec.configured id = true → ∀ dep ∈ spec.dependencies id,
    ReflTransGen (Loads spec) (spec.resolve dep) id →
    (∀ cycle, spec.resolve dep ∈ cycle → spec.isNamed dep cycle = true) ∨
      ∀ links, Settled links id dep

variable (spec Inv Settled) in
structure LoadOk (loading : Loading K S) : Prop where
  inv : Inv loading.links
  known : ∀ k ∈ loading.nodes, spec.configured k = true
  loaded : ∀ k ∈ loading.loaded, k ∈ loading.nodes
  settled : ∀ k ∈ loading.loaded, ∀ dep ∈ spec.dependencies k, Settled loading.links k dep
  cycle : ∀ k ∈ loading.cycle, k ∈ loading.nodes

variable (Settled) in
/-- Loading only adds, and completes what it adds. -/
structure Progress (before after : Loading K S) : Prop where
  nodes : before.nodes ⊆ after.nodes
  loaded : before.loaded ⊆ after.loaded
  keeps : Keeps Settled before.links after.links
  fresh : ∀ k ∈ after.nodes, k ∈ before.nodes ∨ k ∈ after.loaded
  cycle : after.cycle ⊆ before.cycle

lemma Progress.refl (loading : Loading K S) : Progress Settled loading loading where
  nodes := List.Subset.refl _
  loaded := List.Subset.refl _
  keeps _ _ h := h
  fresh _ h := .inl h
  cycle := subset_rfl

lemma Progress.trans {b between a : Loading K S} (h : Progress Settled b between)
    (h' : Progress Settled between a) : Progress Settled b a where
  nodes := List.Subset.trans h.nodes h'.nodes
  loaded := List.Subset.trans h.loaded h'.loaded
  keeps id dep hd := h'.keeps id dep (h.keeps id dep hd)
  fresh k hk := (h'.fresh k hk).elim
    (fun hb => (h.fresh k hb).imp_right (fun hl => h'.loaded hl)) .inr
  cycle := h'.cycle.trans h.cycle

lemma LoadOk.setLinks (ho : LoadOk spec Inv Settled loading) {ls : S} (hi : Inv ls)
    (hkp : Keeps Settled loading.links ls) :
    LoadOk spec Inv Settled { loading with links := ls } where
  inv := hi
  known := ho.known
  loaded := ho.loaded
  settled k hk dep hd := hkp k dep (ho.settled k hk dep hd)
  cycle := ho.cycle

lemma Progress.setLinks {ls : S} (hk : Keeps Settled loading.links ls) :
    Progress Settled loading { loading with links := ls } where
  nodes := List.Subset.refl _
  loaded := List.Subset.refl _
  keeps := hk
  fresh _ h := .inl h
  cycle := subset_rfl

lemma LoadOk.finish (ho : LoadOk spec Inv Settled loading)
    (hs : ∀ dep ∈ spec.dependencies id, Settled loading.links id dep) (hn : id ∈ loading.nodes) :
    LoadOk spec Inv Settled { loading with loaded := loading.loaded ++ [id], cycle := ∅ } where
  inv := ho.inv
  known := ho.known
  loaded := forall_mem_append.mpr ⟨ho.loaded, by simpa using hn⟩
  settled := forall_mem_append.mpr ⟨ho.settled, by simpa using hs⟩
  cycle := by simp

variable (spec Inv Settled) in
structure RestOk (loading : Loading K S) : Prop extends LoadOk spec Inv Settled loading where
  all : ∀ k ∈ loading.nodes, k ∈ loading.loaded

lemma RestOk.foldlM (step : Loading K S → K → Except E (Loading K S)) {rs : List K}
    (hs : ∀ loading, RestOk spec Inv Settled loading → ∀ id ∈ rs,
      ∃ a, step loading id = .ok a ∧ RestOk spec Inv Settled a ∧
        loading.nodes ⊆ a.nodes ∧ id ∈ a.nodes) (hr : RestOk spec Inv Settled loading) :
    ∃ a, rs.foldlM step loading = .ok a ∧ RestOk spec Inv Settled a ∧
      loading.nodes ⊆ a.nodes ∧ ∀ id ∈ rs, id ∈ a.nodes := by
  induction rs generalizing loading with
  | nil => exact ⟨loading, rfl, hr, List.Subset.refl _, by simp⟩
  | cons id rs ih =>
    obtain ⟨next, hnx, hn, hsb, hi⟩ := hs loading hr id mem_cons_self
    obtain ⟨a, haf, ha, hs', hal⟩ := ih
      (fun loading hl o ho =>
        hs loading hl o (mem_cons_of_mem _ ho)) hn
    refine ⟨a, ?_, ha, List.Subset.trans hsb hs', forall_mem_cons.mpr ⟨hs' hi, hal⟩⟩
    rw [foldlM_cons, hnx]
    exact haf

variable [DecidableEq K]

variable (spec Inv Settled ids) in
def LoadsOk (load : K → Loading K S → Except E (Option K × Loading K S)) (fuel : Nat) : Prop :=
  ∀ id loading, LoadOk spec Inv Settled loading → spec.configured id = true →
    (∀ k ∈ loading.cycle, ReflTransGen (Loads spec) k id) → unvisited ids loading.nodes < fuel →
    ∃ after, LoadOk spec Inv Settled after ∧ Progress Settled loading after ∧
      (id ∈ loading.cycle ∧ load id loading = .ok (none, after) ∨
        id ∉ loading.cycle ∧ id ∈ after.nodes ∧ load id loading = .ok (some id, after))

lemma LoadOk.addNode (ho : LoadOk spec Inv Settled loading) (hi : spec.configured id) :
    LoadOk spec Inv Settled
      { loading with nodes := loading.nodes ++ [id], cycle := insert id loading.cycle } where
  inv := ho.inv
  known := forall_mem_append.mpr ⟨ho.known, by simpa using hi⟩
  loaded k hk := mem_append_left _ (ho.loaded k hk)
  settled := ho.settled
  cycle := (Finset.forall_mem_insert _ _ _).mpr
    ⟨by simp, fun k hk => mem_append_left _ (ho.cycle k hk)⟩

lemma Progress.addNode (h : Progress Settled
      { loading with nodes := loading.nodes ++ [id], cycle := insert id loading.cycle } a) :
    Progress Settled loading { a with loaded := a.loaded ++ [id], cycle := ∅ } where
  nodes := fun k hk => h.nodes (mem_append_left _ hk)
  loaded := fun k hk => mem_append_left _ (h.loaded hk)
  keeps := h.keeps
  fresh k hk := by
    obtain ho | hl := h.fresh k hk
    · exact (mem_append.mp ho).imp_right (fun hi => mem_append_right _ hi)
    · exact .inr (mem_append_left _ hl)
  cycle := Finset.empty_subset _

lemma loadDependencies_spec (hsp : LinkSpec spec Inv Settled)
    {load : K → Loading K S → Except E (Option K × Loading K S)} {n : Nat}
    (hld : LoadsOk spec Inv Settled ids load n) {d : List D} (hdp : d ⊆ spec.dependencies id)
    (hid : spec.configured id) (hok : LoadOk spec Inv Settled loading)
    (hc : ∀ k ∈ loading.cycle, ReflTransGen (Loads spec) k id)
    (hf : unvisited ids loading.nodes < n) :
    ∃ a, loadDependencies spec load id d loading = .ok a ∧
      LoadOk spec Inv Settled a ∧ Progress Settled loading a ∧
      ∀ dep ∈ d, Settled a.links id dep := by
  induction d generalizing loading with
  | nil => exact ⟨loading, rfl, hok, Progress.refl loading, by simp⟩
  | cons dep d ih =>
    have hd := hdp mem_cons_self
    have hrs : d ⊆ spec.dependencies id := fun o ho =>
      hdp (mem_cons_of_mem _ ho)
    -- the rest of the loop, from a state in which the dependency is settled
    have hg : ∀ next, LoadOk spec Inv Settled next → Progress Settled loading next →
        Settled next.links id dep → ∃ a, loadDependencies spec load id d next = .ok a ∧
          LoadOk spec Inv Settled a ∧ Progress Settled loading a ∧
          ∀ o ∈ dep :: d, Settled a.links id o := by
      intro next hnx hp hs
      obtain ⟨a, haf, ha, hp', hal⟩ := ih hrs hnx (fun k hk => hc k (hp.cycle hk))
        (lt_of_le_of_lt (unvisited_le_of_subset hp.nodes) hf)
      exact ⟨a, haf, ha, hp.trans hp', forall_mem_cons.mpr ⟨hp'.keeps id dep hs, hal⟩⟩
    unfold loadDependencies
    split
    next hnm =>
      have hb := hsp.named dep loading.cycle (fun k hk => hok.known k (hok.cycle k hk)) hnm
      obtain ⟨hi, hs, hkp⟩ := hsp.back id hid dep hd loading.nodes loading.links
        (hc _ hb) (hok.cycle _ hb) hok.inv
      exact hg _ (hok.setLinks hi hkp) (Progress.setLinks hkp) hs
    next hnm =>
      have hl : Loads spec id (spec.resolve dep) := ⟨hid, dep, hd, rfl⟩
      obtain ⟨next, hnx, hp, ⟨hb, hn⟩ | ⟨-, -, hsm⟩⟩ := hld (spec.resolve dep)
        loading hok (hsp.configured id hid dep hd) (fun k hk => (hc k hk).tail hl) hf
      · rw [hn]
        obtain hr | hs := hsp.unnamed id hid dep hd (hc _ hb)
        · exact absurd (hr _ hb) hnm
        · exact hg next hnx hp (hs next.links)
      · rw [hsm]
        obtain ⟨ls, hln, hi, hs, hkp⟩ := hsp.link id hid dep hd next.links hnx.inv
        change ∃ a, (spec.link id dep next.links >>= _) = .ok a ∧ _
        rw [hln]
        exact hg _ (hnx.setLinks hi hkp) (hp.trans (Progress.setLinks hkp)) hs

lemma loadNode_spec (hsp : LinkSpec spec Inv Settled)
    (hids : ∀ k, spec.configured k → k ∈ ids) (n : Nat) :
    LoadsOk spec Inv Settled ids (loadNode spec n) n := by
  induction n with
  | zero =>
    intro id loading _ _ _ hf
    omega
  | succ n ih =>
    intro id loading ho hi hc hf
    unfold loadNode
    split
    next hm => exact ⟨loading, ho, Progress.refl loading, .inl ⟨hm, rfl⟩⟩
    next hn =>
      rw [hi]
      simp only [Bool.not_true, Bool.false_eq_true, if_false]
      split
      next hnd => exact ⟨loading, ho, Progress.refl loading, .inr ⟨hn, hnd, rfl⟩⟩
      next hnd =>
        have hr : ∀ k ∈ insert id loading.cycle, ReflTransGen (Loads spec) k id :=
          (Finset.forall_mem_insert _ _ _).mpr ⟨.refl, hc⟩
        have hls : unvisited ids (loading.nodes ++ [id]) < n := by
          have hlt := unvisited_lt_of_subset (subset_append_left loading.nodes [id])
            (hids id hi) hnd (by simp)
          omega
        obtain ⟨a, haf, ha, hp, hs⟩ :=
          loadDependencies_spec hsp ih (List.Subset.refl _) hi (ho.addNode hi) hr hls
        have hna : id ∈ a.nodes := hp.nodes (by simp)
        refine ⟨_, ha.finish hs hna, Progress.addNode hp, .inr ⟨hn, hna, ?_⟩⟩
        rw [haf]
        rfl

lemma RestOk.load {load : K → Loading K S → Except E (Option K × Loading K S)}
    (hl : LoadsOk spec Inv Settled ids load (ids.length + 1))
    (hr : RestOk spec Inv Settled loading) (hi : spec.configured id) :
    ∃ a, load id { loading with cycle := ∅ } = .ok (some id, a) ∧
      RestOk spec Inv Settled a ∧ loading.nodes ⊆ a.nodes ∧ id ∈ a.nodes := by
  have hok : LoadOk spec Inv Settled { loading with cycle := ∅ } :=
    { hr.toLoadOk with cycle := by simp }
  have hf : unvisited ids loading.nodes < ids.length + 1 :=
    Nat.lt_succ_of_le (unvisited_le_length ids loading.nodes)
  obtain ⟨a, ha, hp, ⟨hm, -⟩ | ⟨-, hn, hl⟩⟩ := hl id _ hok hi (by simp) hf
  · simp at hm
  · refine ⟨a, hl, ⟨ha, fun k hk => ?_⟩, hp.nodes, hn⟩
    obtain ho | hld := hp.fresh k hk
    · exact hp.loaded (hr.all k ho)
    · exact hld

end

end Moon.Proofs
