import Moon.ActionGraphBuilder

/-!
# One pass over the reports

A report is looked at once. What it would add is missing if the toolchain that it is about only
comes in with a later one.
-/

namespace Moon.Proofs

open List Relation

def mentions (report : Id × DefineRequirementsOutput) : List Id := report.1 :: report.2.requires

variable {ids : List Id} {rs : List (Id × DefineRequirementsOutput)} {id : Id}

/-- The least set with the ids in which a plugin that is in it, or requires something in it,
is together with everything it requires. -/
def leastUsage (ids : List Id) (reports : List (Id × DefineRequirementsOutput)) : Set Id :=
  ⋂₀ {s | (∀ id ∈ ids, id ∈ s) ∧
    ∀ report ∈ reports, (∃ id ∈ mentions report, id ∈ s) → ∀ id ∈ mentions report, id ∈ s}

/-- Some of the reports, in any order, lead from one toolchain to the other. -/
def SharesReports (reports : List (Id × DefineRequirementsOutput)) : Id → Id → Prop :=
  ReflTransGen (fun id other => ∃ report ∈ reports, id ∈ mentions report ∧ other ∈ mentions report)

/-- Some of the reports lead from one toolchain to the other, in the order they are in. -/
def LinkedInOrder (id : Id) : List (Id × DefineRequirementsOutput) → Id → Prop
  | [], a => a = id
  | report :: rs, a => LinkedInOrder id rs a ∨
      a ∈ mentions report ∧ ∃ other ∈ mentions report, LinkedInOrder id rs other

lemma mem_leastUsage : id ∈ leastUsage ids rs ↔ ∃ a ∈ ids, SharesReports rs a id := by
  constructor
  · intro h
    refine h {id | ∃ a ∈ ids, SharesReports rs a id} ⟨fun id hi => ⟨id, hi, .refl⟩, ?_⟩
    rintro report hr ⟨o, ho, a, hs, hl⟩ id hi
    exact ⟨a, hs, hl.tail ⟨report, hr, ho, hi⟩⟩
  · rintro ⟨a, hs, hl⟩ s ⟨hids, hc⟩
    induction hl with
    | refl => exact hids a hs
    | tail _ hst ih =>
      obtain ⟨report, hr, ho, hi⟩ := hst
      exact hc report hr ⟨_, ho, ih⟩ _ hi

lemma mem_foldl_expand (rs : List (Id × DefineRequirementsOutput)) (e : Finset Id) (id : Id) :
    id ∈ rs.foldl (fun e report =>
      if report.1 ∈ e ∨ ∃ id ∈ report.2.requires, id ∈ e then
        insert report.1 (e ∪ report.2.requires.toFinset)
      else e) e ↔ ∃ a ∈ e, LinkedInOrder id rs a := by
  induction rs generalizing e with
  | nil => simp [LinkedInOrder]
  | cons report rs ih =>
    have hmn : (report.1 ∈ e ∨ ∃ id ∈ report.2.requires, id ∈ e) ↔
        ∃ a ∈ e, a ∈ mentions report := by
      simp [mentions, and_or_left, exists_or, and_comm]
    have hi (o : Id) : o ∈ insert report.1 (e ∪ report.2.requires.toFinset) ↔
        o ∈ e ∨ o ∈ mentions report := by
      simp only [Finset.mem_insert, Finset.mem_union, mem_toFinset, mentions, mem_cons]
      tauto
    rw [foldl_cons, ih]
    simp only [LinkedInOrder, and_or_left, exists_or]
    split_ifs with ht
    · simp only [hi, or_and_right, exists_or]
      obtain ⟨a, hs, hm⟩ := hmn.mp ht
      refine or_congr_right ⟨fun h => ⟨a, hs, hm, h⟩, ?_⟩
      rintro ⟨-, -, -, h⟩
      exact h
    · refine (or_iff_left ?_).symm
      rintro ⟨a, hs, hm, -⟩
      exact ht (hmn.mpr ⟨a, hs, hm⟩)

lemma LinkedInOrder.shares {a : Id} (h : LinkedInOrder id rs a) : SharesReports rs a id := by
  induction rs generalizing a with
  | nil => exact h ▸ .refl
  | cons report rs ih =>
    have hm (o : Id) : SharesReports rs o id →
        SharesReports (report :: rs) o id :=
      ReflTransGen.mono (fun _ _ ⟨r, hr, h⟩ => ⟨r, mem_cons_of_mem _ hr, h⟩) _ _
    rcases h with h | ⟨hs, o, ho, h⟩
    · exact hm _ (ih h)
    · exact .head ⟨report, mem_cons_self, hs, ho⟩ (hm _ (ih h))

/-- One pass finds the least set exactly if whatever is linked to the ids is linked to one of
them by reports that come in order. -/
theorem expandTaskUsage_least_iff (ids : List Id) (reports : List (Id × DefineRequirementsOutput)) :
    (∀ id, id ∈ expandTaskUsage ids reports ↔ id ∈ leastUsage ids reports) ↔
      ∀ start ∈ ids, ∀ id, SharesReports reports start id →
        ∃ start ∈ ids, LinkedInOrder id reports start := by
  have hp (id : Id) : id ∈ expandTaskUsage ids reports ↔
      ∃ start ∈ ids, LinkedInOrder id reports start := by
    simpa [expandTaskUsage] using mem_foldl_expand reports ids.toFinset id
  simp only [hp, mem_leastUsage]
  exact ⟨fun h start hs id hi => (h id).mpr ⟨start, hs, hi⟩, fun h id =>
    ⟨fun ⟨start, hs, hi⟩ => ⟨start, hs, LinkedInOrder.shares hi⟩,
      fun ⟨start, hs, hi⟩ => h start hs id hi⟩⟩

/-- `c` is missing if `b` reports that it requires `c` before `a` reports that it requires `b`. -/
theorem usage_depends_on_order :
    expandTaskUsage ["a"] [("a", { requires := ["b"] }), ("b", { requires := ["c"] })] =
        {"a", "b", "c"} ∧
      expandTaskUsage ["a"] [("b", { requires := ["c"] }), ("a", { requires := ["b"] })] =
        {"a", "b"} := by
  decide

end Moon.Proofs
