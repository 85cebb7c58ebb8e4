import Moon.Proofs.TaskInputs
import Moon.Query

/-!
# Negated comparisons

A comparison looks for one value of an item that passes its test, and so does the negated one.
-/

namespace Moon.Proofs

open Lib List QueryGraph ComparisonOperator Condition

variable {f : Field} {cs : List Condition}

def negate : ComparisonOperator → ComparisonOperator
  | .equal => .notEqual
  | .notEqual => .equal
  | .like => .notLike
  | .notLike => .like

/-- A comparison that is not negated, with a glob only where one is allowed. -/
def Positive (field : Field) (op : ComparisonOperator) : Prop :=
  op = .equal ∨ op = .like ∧
    match field with
    | .language _ | .projectLayer _ | .projectStack _ | .taskType _ => False
    | _ => True

section

variable (e : GlobEngine) (op : ComparisonOperator) (vs : List String)

def Compiles : Prop :=
  match op with
  | .equal | .notEqual => True
  | .like | .notLike => ∃ globset, GlobSet.new e vs = .ok globset

def Names (needle : String) : Prop :=
  match op with
  | .equal | .notEqual => needle ∈ vs
  | .like | .notLike =>
    ∃ globset, GlobSet.new e vs = .ok globset ∧ globset.isIncluded needle = true

/-- Of the names, all or none match. -/
def Agree (needles : List String) : Prop :=
  needles ≠ [] ∧ ∀ needle ∈ needles, ∀ other ∈ needles, Names e op vs needle ↔ Names e op vs other

variable {e op vs} {ns : List String}

variable (e op vs) in
lemma test_cases (ho : op = .equal ∨ op = .like) : (Compiles e op vs ∧ ∃ p : String → Bool, ∀ n,
      op.test e vs n = .ok (p n) ∧
      (negate op).test e vs n = .ok (!p n) ∧
      (p n ↔ Names e op vs n)) ∨
    (¬ Compiles e op vs ∧ (∀ n, ¬ Names e op vs n) ∧ ∃ error, ∀ n, op.test e vs n = .error error ∧
        (negate op).test e vs n = .error error) := by
  obtain rfl | rfl := ho
  · refine .inl ⟨trivial, fun n => vs.contains n, fun n => ⟨rfl, rfl, ?_⟩⟩
    exact contains_iff_mem
  · cases hn : GlobSet.new e vs with
    | ok gl =>
      refine .inl ⟨⟨gl, hn⟩, gl.isIncluded, fun n => ⟨?_, ?_, ?_⟩⟩
      · simp only [test, hn]
        rfl
      · simp only [negate, test, hn]
        rfl
      · simp only [Names, hn, Except.ok.injEq, exists_eq_left']
    | error error =>
      refine .inr ⟨?_, fun n => ?_, error, fun n => ⟨?_, ?_⟩⟩
      · simp [Compiles, hn]
      · simp [Names, hn]
      · simp only [test, hn]
        rfl
      · simp only [negate, test, hn]
        rfl

lemma testList_eq_any {p : String → Bool} (h : ∀ n, op.test e vs n = .ok (p n)) :
    op.testList e vs ns = .ok (ns.any p) := by
  induction ns with
  | nil => rfl
  | cons n ns ih =>
    rw [testList, h n, any_cons]
    cases hp : p n with
    | true => rfl
    | false => exact ih

lemma testList_eq_error {er : String} (h : ∀ n, op.test e vs n = .error er) (hn : ns ≠ []) :
    op.testList e vs ns = .error er := by
  obtain ⟨n, rest, rfl⟩ := exists_cons_of_ne_nil hn
  rw [testList, h n]
  rfl

lemma testList_singleton (n : String) : op.testList e vs [n] = op.test e vs n := by
  rw [testList]
  cases op.test e vs n with
  | error error => rfl
  | ok p => cases p <;> rfl

lemma any_not_eq_iff {α : Type} {l : List α} {p : α → Bool} :
    (l.any (fun a => !p a)) = !l.any p ↔ l ≠ [] ∧ ∀ a ∈ l, ∀ b ∈ l, (p a ↔ p b) := by
  rw [Bool.eq_iff_iff, Bool.not_eq_true', any_eq_true, any_eq_false]
  constructor
  · intro h
    refine ⟨?_, fun a ha b hb => ?_⟩
    · rintro rfl
      obtain ⟨a, ha, -⟩ := h.mpr (by simp)
      cases ha
    · by_cases hal : ∀ x ∈ l, ¬ p x
      · exact iff_of_false (hal a ha) (hal b hb)
      · have hev : ∀ x ∈ l, p x := by
          intro x hx
          by_contra hf
          exact hal (h.mp ⟨x, hx, by simpa using hf⟩)
        exact iff_of_true (hev a ha) (hev b hb)
  · rintro ⟨hne, hs⟩
    obtain ⟨a, rest, rfl⟩ := exists_cons_of_ne_nil hne
    constructor
    · rintro ⟨b, hb, hf⟩ c hc hp
      rw [(hs c hc b hb).mp hp] at hf
      cases hf
    · intro hn
      exact ⟨a, mem_cons_self, by simpa using hn a mem_cons_self⟩

lemma testList_complement_iff (ho : op = .equal ∨ op = .like) :
    (negate op).testList e vs ns = (op.testList e vs ns).map (!·) ↔ Agree e op vs ns := by
  obtain ⟨-, p, hp⟩ | ⟨-, hn, error, her⟩ := test_cases e op vs ho
  · rw [testList_eq_any (fun n => (hp n).1), testList_eq_any (fun n => (hp n).2.1)]
    have ha : Agree e op vs ns ↔ ns ≠ [] ∧
        ∀ a ∈ ns, ∀ b ∈ ns, (p a ↔ p b) := by
      simp only [Agree, ← (hp _).2.2]
    rw [ha, ← any_not_eq_iff]
    simp only [Except.map, Except.ok.injEq]
  · have ha : Agree e op vs ns ↔ ns ≠ [] := by
      refine ⟨fun h => h.1, fun h => ⟨h, fun a _ b _ => ?_⟩⟩
      exact iff_of_false (hn a) (hn b)
    rw [ha]
    by_cases hne : ns = []
    · subst hne
      simp [testList, Except.map]
    · rw [testList_eq_error (fun n => (her n).1) hne, testList_eq_error (fun n => (her n).2) hne]
      exact iff_of_true rfl hne

variable (e vs) in
lemma any_testList_complement_iff (ho : op = .equal ∨ op = .like) (ls : List (List String)) :
    (ls.any (fun ns => unwrapOrDefault ((negate op).testList e vs ns))) =
      (!ls.any (fun ns => unwrapOrDefault (op.testList e vs ns))) ↔
      Compiles e op vs ∧ Agree e op vs ls.flatten := by
  obtain ⟨hc, p, hp⟩ | ⟨hc, -, error, her⟩ := test_cases e op vs ho
  · have hps : ∀ ns, unwrapOrDefault (op.testList e vs ns) = ns.any p := by
      intro ns
      rw [testList_eq_any (fun n => (hp n).1)]
      rfl
    have hng : ∀ ns, unwrapOrDefault
        ((negate op).testList e vs ns) = ns.any (fun n => !p n) := by
      intro ns
      rw [testList_eq_any (fun n => (hp n).2.1)]
      rfl
    have ha : Agree e op vs ls.flatten ↔ ls.flatten ≠ [] ∧
        ∀ a ∈ ls.flatten, ∀ b ∈ ls.flatten, (p a ↔ p b) := by
      simp only [Agree, ← (hp _).2.2]
    simp only [hps, hng, ← any_flatten]
    rw [ha, any_not_eq_iff]
    exact ⟨fun h => ⟨hc, h⟩, fun h => h.2⟩
  · have hf : ∀ (te : ComparisonOperator), (∀ n, te.test e vs n =
        .error error) → ∀ ns, unwrapOrDefault (te.testList e vs ns) = false := by
      intro te ht ns
      by_cases hn : ns = []
      · subst hn
        rfl
      · rw [testList_eq_error ht hn]
        rfl
    simp only [hf op (fun n => (her n).1), hf (negate op) (fun n => (her n).2)]
    refine iff_of_false ?_ (fun h => hc h.1)
    rw [any_eq_false.mpr (by simp)]
    decide

end

section

variable (g : QueryGraph) (op : ComparisonOperator)

lemma getMany_complement_iff {ta : List Target} {p q : List QueryTask → Bool} :
    ((do let ts ← g.getManyTasks ta; return p ts : Except String Bool) =
      (do let ts ← g.getManyTasks ta; return q ts : Except String Bool).map (!·)) ↔
      ∀ ts, g.getManyTasks ta = .ok ts → p ts = !q ts := by
  cases g.getManyTasks ta with
  | error error => exact iff_of_true rfl (fun ts h => by cases h)
  | ok ts =>
    constructor
    · intro h tasks' ht'
      cases ht'
      exact Except.ok.inj h
    · intro h
      exact congrArg Except.ok (h ts rfl)

/-- When exactly one of a comparison and its negation holds. -/
def ProjectComplements (project : QueryProject) : Field → Prop
  | .language _ | .projectLayer _ | .projectStack _ | .projectId _ | .projectSource _ => True
  | .project vs => Agree g.engine op vs (project.id :: project.aliases)
  | .projectAlias vs => Agree g.engine op vs project.aliases
  | .projectTag vs => Agree g.engine op vs project.tags
  | .task vs =>
    Compiles g.engine op vs ∧ Agree g.engine op vs (project.taskTargets.filterMap (·.getTaskId))
  | .taskTag vs =>
    ∀ tasks, g.getManyTasks project.taskTargets = .ok tasks →
      Compiles g.engine op vs ∧ Agree g.engine op vs (tasks.flatMap (·.tags))
  | .taskToolchain vs =>
    ∀ tasks, g.getManyTasks project.taskTargets = .ok tasks →
      Compiles g.engine op vs ∧ Agree g.engine op vs
        (tasks.flatMap (fun task => task.toolchains.flatMap stableAndUnstable))
  | .taskType types =>
    ∀ tasks, g.getManyTasks project.taskTargets = .ok tasks →
      tasks ≠ [] ∧ ∀ task ∈ tasks, ∀ other ∈ tasks, (task.typeOf ∈ types ↔ other.typeOf ∈ types)

/-- When exactly one of a comparison and its negation holds of a task. -/
def TaskComplements (task : QueryTask) : Field → Prop
  | .project vs =>
    match task.target.getProjectId with
    | none => False
    | some projectId =>
      match g.getProjectUnexpanded projectId with
      | .ok project => Agree g.engine op vs (projectId :: project.aliases)
      | .error _ => ¬ Compiles g.engine op vs
  | .task _ | .taskType _ => True
  | .taskTag vs => Agree g.engine op vs task.tags
  | .taskToolchain vs => Agree g.engine op vs task.toolchains
  | _ => False

variable {g op}

lemma agree_singleton {e : GlobEngine} {vs : List String} (n : String) : Agree e op vs [n] := by
  refine ⟨cons_ne_nil _ _, fun a ha b hb => ?_⟩
  rw [mem_singleton.mp ha, mem_singleton.mp hb]

lemma test_complement (e : GlobEngine) (ho : op = .equal ∨ op = .like)
    (vs : List String) (n : String) : (negate op).test e vs n = (op.test e vs n).map (!·) := by
  rw [← testList_singleton, ← testList_singleton]
  exact (testList_complement_iff ho).mpr (agree_singleton n)

lemma test_or_testList (e : GlobEngine) (te : ComparisonOperator) (vs : List String)
    (id : String) (al : List String) :
    (do
      if ← te.test e vs id then
        return true
      else if !al.isEmpty then
        te.testList e vs al
      else
        return false : Except String Bool) = te.testList e vs (id :: al) := by
  rw [testList]
  cases te.test e vs id with
  | error error => rfl
  | ok p =>
    cases p with
    | true => rfl
    | false => cases al <;> rfl

lemma projectAliasMatches_eq (project : QueryProject) (vs : List String) :
    g.projectFieldMatches project (.projectAlias vs) op =
      op.testList g.engine vs project.aliases := by
  simp only [projectFieldMatches]
  cases project.aliases <;> rfl

lemma projectField_complement_iff (ho : Positive f op) (project : QueryProject) :
    g.projectFieldMatches project f (negate op) =
      (g.projectFieldMatches project f op).map (!·) ↔
      ProjectComplements g op project f := by
  have ho' : op = .equal ∨ op = .like := ho.imp id And.left
  cases f with
  | language vs | projectLayer vs | projectStack vs =>
    obtain rfl | ⟨-, hf⟩ := ho
    · exact iff_of_true rfl trivial
    · cases hf
  | projectId vs | projectSource vs =>
    exact iff_of_true (test_complement _ ho' vs _) trivial
  | project vs =>
    simp only [projectFieldMatches, test_or_testList]
    exact testList_complement_iff ho'
  | projectAlias vs =>
    rw [projectAliasMatches_eq, projectAliasMatches_eq]
    exact testList_complement_iff ho'
  | projectTag vs => exact testList_complement_iff ho'
  | task vs =>
    have ht : ∀ tested : ComparisonOperator,
        g.projectFieldMatches project (.task vs) tested =
          .ok (((project.taskTargets.filterMap (·.getTaskId)).map ([·])).any (fun ns =>
            unwrapOrDefault (tested.testList g.engine vs ns))) := by
      intro tested
      simp only [projectFieldMatches, any_map, any_filterMap, Function.comp_def, testList_singleton]
      congr 2
      funext t
      cases t.getTaskId <;> rfl
    have hfl : ((project.taskTargets.filterMap (·.getTaskId)).map ([·])).flatten =
        project.taskTargets.filterMap (·.getTaskId) := by
      rw [← flatMap_def, flatMap_singleton']
    have hi := any_testList_complement_iff g.engine vs ho'
      ((project.taskTargets.filterMap (·.getTaskId)).map ([·]))
    rw [hfl] at hi
    rw [ht, ht]
    exact ⟨fun h => hi.mp (Except.ok.inj h), fun h => congrArg Except.ok (hi.mpr h)⟩
  | taskTag vs =>
    refine (getMany_complement_iff g).trans (forall₂_congr (fun ts _ => ?_))
    have hi := any_testList_complement_iff g.engine vs ho' (ts.map (·.tags))
    simpa only [any_map, Function.comp_def, flatMap_def] using hi
  | taskToolchain vs =>
    refine (getMany_complement_iff g).trans (forall₂_congr (fun ts _ => ?_))
    have hi := any_testList_complement_iff g.engine vs ho'
      (ts.map (fun task => task.toolchains.flatMap stableAndUnstable))
    simpa only [any_map, Function.comp_def, flatMap_def] using hi
  | taskType types =>
    obtain rfl | ⟨-, hf⟩ := ho
    · refine (getMany_complement_iff g).trans (forall₂_congr (fun ts _ => ?_))
      have hi := any_not_eq_iff (l := ts) (p := fun task => types.contains task.typeOf)
      simp only [contains_iff_mem] at hi
      exact hi
    · cases hf

lemma taskField_complement_iff (ho : Positive f op) (task : QueryTask) :
    g.taskFieldMatches task f (negate op) =
      (g.taskFieldMatches task f op).map (!·) ↔ TaskComplements g op task f := by
  have ho' : op = .equal ∨ op = .like := ho.imp id And.left
  cases f with
  | project vs =>
    cases hi : task.target.getProjectId with
    | none =>
      simp only [taskFieldMatches, TaskComplements, hi]
      exact iff_of_false (by simp [Except.map]) id
    | some projectId =>
      cases hpr : g.getProjectUnexpanded projectId with
      | ok project =>
        have hls : ∀ tested : ComparisonOperator,
            g.taskFieldMatches task (.project vs) tested =
              tested.testList g.engine vs (projectId :: project.aliases) := by
          intro tested
          simp only [taskFieldMatches, getTaskParentProject, hi, hpr]
          exact test_or_testList _ tested vs projectId project.aliases
        rw [hls, hls]
        simp only [TaskComplements, hi, hpr]
        exact testList_complement_iff ho'
      | error error =>
        -- The project is only looked up if its id does not match.
        have hl : ∀ tested : ComparisonOperator,
            g.taskFieldMatches task (.project vs) tested =
              (tested.test g.engine vs projectId).bind (fun passed =>
                if passed then .ok true else .error error) := by
          intro tested
          simp only [taskFieldMatches, getTaskParentProject, hi, hpr]
          cases tested.test g.engine vs projectId with
          | error error => rfl
          | ok passed => cases passed <;> rfl
        rw [hl, hl]
        simp only [TaskComplements, hi, hpr]
        obtain ⟨hc, p, hp⟩ | ⟨hc, -, failure, hf⟩ := test_cases g.engine op vs ho'
        · refine iff_of_false ?_ (fun h => h hc)
          rw [(hp projectId).1, (hp projectId).2.1]
          cases p projectId <;> simp [Except.bind, Except.map]
        · rw [(hf projectId).1, (hf projectId).2]
          exact iff_of_true rfl hc
  | task vs => exact iff_of_true (test_complement _ ho' vs _) trivial
  | taskTag vs => exact testList_complement_iff ho'
  | taskToolchain vs => exact testList_complement_iff ho'
  | taskType types =>
    obtain rfl | ⟨-, hfl⟩ := ho
    · exact iff_of_true rfl trivial
    · cases hfl
  | language | projectAlias | projectId | projectLayer | projectSource | projectStack
  | projectTag =>
    exact iff_of_false (by simp [taskFieldMatches, Except.map]) id

end

section

mutual

/-- The condition, for given truth of its comparisons. -/
def holds (truth : Field → ComparisonOperator → Bool) : Condition → Bool
  | .field f op => truth f op
  | .criteria .and cs => allHold truth cs
  | .criteria .or cs => someHolds truth cs

def allHold (truth : Field → ComparisonOperator → Bool) : List Condition → Bool
  | [] => true
  | c :: cs => holds truth c && allHold truth cs

def someHolds (truth : Field → ComparisonOperator → Bool) : List Condition → Bool
  | [] => false
  | c :: cs => holds truth c || someHolds truth cs

end

mutual

def comparisons : Condition → List (Field × ComparisonOperator)
  | .field f op => [(f, op)]
  | .criteria _ cs => allComparisons cs

def allComparisons : List Condition → List (Field × ComparisonOperator)
  | [] => []
  | c :: cs => comparisons c ++ allComparisons cs

end

mutual

def Grouped : Condition → Prop
  | .field _ _ => True
  | .criteria _ cs => cs ≠ [] ∧ AllGrouped cs

def AllGrouped : List Condition → Prop
  | [] => True
  | c :: cs => Grouped c ∧ AllGrouped cs

end

def StartsWithComparison (nodes : List AstNode) : Prop :=
  ∃ field op value rest, nodes = .comparison field op value :: rest

mutual

def NodeParsed : AstNode → Prop
  | .comparison _ _ _ => True
  | .op _ => True
  | .group n => StartsWithComparison n ∧ AllParsed n

def AllParsed : List AstNode → Prop
  | [] => True
  | node :: n => NodeParsed node ∧ AllParsed n

end

lemma allGrouped_append {os : List Condition} (h : AllGrouped cs)
    (h' : AllGrouped os) : AllGrouped (cs ++ os) := by
  induction cs with
  | nil => exact h'
  | cons c cs ih =>
    rw [AllGrouped] at h
    rw [cons_append, AllGrouped]
    exact ⟨h.1, ih h.2⟩

lemma allGrouped_singleton {c : Condition} (h : Grouped c) : AllGrouped [c] := by
  rw [AllGrouped, AllGrouped]
  exact ⟨h, trivial⟩

lemma buildNodes_grouped {ps : EnumParsers} {n : List AstNode} {op : Option LogicalOperator}
    {r : LogicalOperator × List Condition} (hp : AllParsed n) (hc : AllGrouped cs)
    (h : buildNodes ps op cs n = .ok r) :
    AllGrouped r.2 ∧ (cs ≠ [] ∨ StartsWithComparison n → r.2 ≠ []) := by
  induction op, cs, n using buildNodes.induct generalizing r with
  | case1 op cs =>
    rw [buildNodes] at h
    cases h
    refine ⟨hc, ?_⟩
    rintro (hn | ⟨_, _, _, _, hnl⟩)
    · exact hn
    · cases hnl
  | case2 op cs f fi v re ih =>
    rw [AllParsed] at hp
    rw [buildNodes] at h
    obtain ⟨b, -, hrs⟩ := bind_eq_ok h
    have hg : Grouped (.field b fi) := by
      rw [Grouped]
      trivial
    have hr := ih b hp.2 (allGrouped_append hc (allGrouped_singleton hg)) hrs
    exact ⟨hr.1, fun _ => hr.2 (.inl (by simp))⟩
  | case3 cs ne re c hn =>
    rw [buildNodes, if_pos hn] at h
    cases h
  | case4 cs ne re c hs ih =>
    rw [AllParsed] at hp
    rw [buildNodes, if_neg hs] at h
    have hr := ih hp.2 hc h
    refine ⟨hr.1, ?_⟩
    rintro (hc | ⟨_, _, _, _, ho⟩)
    · exact hr.2 (.inl hc)
    · cases ho
  | case5 cs ne re ih =>
    rw [AllParsed] at hp
    rw [buildNodes] at h
    have hr := ih hp.2 hc h
    refine ⟨hr.1, ?_⟩
    rintro (hc | ⟨_, _, _, _, ho⟩)
    · exact hr.2 (.inl hc)
    · cases ho
  | case6 op cs n re i ihrest =>
    rw [AllParsed, NodeParsed] at hp
    rw [buildNodes] at h
    obtain ⟨gr, hgr, hrs⟩ := bind_eq_ok h
    have hi := i hp.1.2 (by rw [AllGrouped]; trivial) hgr
    have hg : Grouped (.criteria gr.1 gr.2) := by
      rw [Grouped]
      exact ⟨hi.2 (.inr hp.1.1), hi.1⟩
    have hr := ihrest gr.1 gr.2 hp.2 (allGrouped_append hc (allGrouped_singleton hg)) hrs
    exact ⟨hr.1, fun _ => hr.2 (.inl (by simp))⟩

section

variable {fs : Field → ComparisonOperator → Except String Bool}
  {t : Field → ComparisonOperator → Bool}

mutual

lemma evaluate_eq_holds (c : Condition) (hg : Grouped c) (h : ∀ co ∈ comparisons c,
      fs co.1 co.2 = .ok (t co.1 co.2)) : c.evaluate fs = .ok (holds t c) := by
  match c with
  | .field f op =>
    rw [evaluate, holds]
    exact h (f, op) (by rw [comparisons]; exact mem_singleton_self _)
  | .criteria .and cs =>
    rw [Grouped] at hg
    rw [comparisons] at h
    rw [evaluate, holds, evaluateAll_and cs hg.2 h false]
    have hn : cs.isEmpty = false := by simpa using hg.1
    rw [hn]
    simp
  | .criteria .or cs =>
    rw [Grouped] at hg
    rw [comparisons] at h
    rw [evaluate, holds, evaluateAll_or cs hg.2 h false]
    rfl

lemma evaluateAll_and (cs : List Condition) (hg : AllGrouped cs)
    (h : ∀ co ∈ allComparisons cs, fs co.1 co.2 = .ok (t co.1 co.2)) (m : Bool) :
    evaluateAll fs .and m cs = .ok (allHold t cs && (m || !cs.isEmpty)) := by
  match cs with
  | [] => simp [evaluateAll, allHold]
  | c :: cs =>
    rw [AllGrouped] at hg
    rw [allComparisons, forall_mem_append] at h
    rw [evaluateAll, evaluate_eq_holds c hg.1 h.1, allHold]
    cases hcnd : holds t c with
    | true =>
      change evaluateAll fs .and true cs = _
      rw [evaluateAll_and cs hg.2 h.2 true]
      simp
    | false => rfl

lemma evaluateAll_or (cs : List Condition) (hg : AllGrouped cs)
    (h : ∀ co ∈ allComparisons cs, fs co.1 co.2 = .ok (t co.1 co.2)) (m : Bool) :
    evaluateAll fs .or m cs = .ok (m || someHolds t cs) := by
  match cs with
  | [] => simp [evaluateAll, someHolds]
  | c :: cs =>
    rw [AllGrouped] at hg
    rw [allComparisons, forall_mem_append] at h
    rw [evaluateAll, evaluate_eq_holds c hg.1 h.1, someHolds]
    cases hcnd : holds t c with
    | true =>
      change (.ok true : Except String Bool) = _
      simp
    | false =>
      change evaluateAll fs .or m cs = _
      rw [evaluateAll_or cs hg.2 h.2 m]
      simp

end

end

end

def comparisonQuery (field : Field) (op : ComparisonOperator) : Criteria :=
  { conditions := [.field field op] }

lemma evaluateAll_comparison (fs : Field → ComparisonOperator → Except String Bool)
    (f : Field) (op : ComparisonOperator) : evaluateAll fs .and false [.field f op] = fs f op := by
  rw [evaluateAll, evaluate]
  cases fs f op with
  | error error => rfl
  | ok m => cases m <;> rfl

/-- A negated comparison is the complement exactly if the values of an item agree, and groups
are the usual combination of what their comparisons say. -/
theorem negation_complements_iff (graph : QueryGraph) :
    (∀ project field op, Positive field op →
      (graph.doesProjectMatchCriteria project (comparisonQuery field (negate op)) =
        (graph.doesProjectMatchCriteria project (comparisonQuery field op)).map (!·) ↔
          ProjectComplements graph op project field)) ∧
    (∀ task field op, Positive field op →
      (graph.doesTaskMatchCriteria task (comparisonQuery field (negate op)) =
        (graph.doesTaskMatchCriteria task (comparisonQuery field op)).map (!·) ↔
          TaskComplements graph op task field)) ∧
    ∀ parsers nodes op conditions, StartsWithComparison nodes → AllParsed nodes →
      buildNodes parsers none [] nodes = .ok (op, conditions) →
        ∀ fieldMatches truth, (∀ comparison ∈ allComparisons conditions,
          fieldMatches comparison.1 comparison.2 = .ok (truth comparison.1 comparison.2)) →
            evaluateAll fieldMatches op false conditions =
              .ok (holds truth (.criteria op conditions)) := by
  refine ⟨fun project field op ho => ?_, fun task field op ho => ?_, ?_⟩
  · rw [← projectField_complement_iff ho project]
    simp only [doesProjectMatchCriteria, comparisonQuery, evaluateAll_comparison]
  · rw [← taskField_complement_iff ho task]
    simp only [doesTaskMatchCriteria, comparisonQuery, evaluateAll_comparison]
  · intro parsers nodes op conditions hs hp hb fieldMatches truth ht
    have hg := buildNodes_grouped hp (by rw [AllGrouped]; trivial) hb
    have hc : Grouped (.criteria op conditions) := by
      rw [Grouped]
      exact ⟨hg.2 (.inr hs), hg.1⟩
    have heq := evaluate_eq_holds (.criteria op conditions) hc (by rw [comparisons]; exact ht)
    rwa [evaluate] at heq

def taggedGraph : QueryGraph where
  engine := literalGlobs
  projects := [{ id := "web", source := "web", tags := ["app", "react"] },
    { id := "lib", source := "lib" }]
  tasks := []

def apiProject : QueryProject := { id := "api", source := "api", tags := ["app", "rust"] }

theorem all_tags_complement :
    taggedGraph.doesProjectMatchCriteria apiProject
        (comparisonQuery (.projectTag ["app", "rust", "web"]) .notEqual) =
      (taggedGraph.doesProjectMatchCriteria apiProject
        (comparisonQuery (.projectTag ["app", "rust", "web"]) .equal)).map (!·) := by
  refine ((negation_complements_iff taggedGraph).1 _ _ .equal (.inl rfl)).mpr ?_
  exact ⟨cons_ne_nil _ _, by simp [Names, apiProject]⟩

/-- A project with two tags matches both ways, and one without tags matches neither. -/
theorem tags_match_both_ways :
    (taggedGraph.projects.map (fun project =>
      taggedGraph.doesProjectMatchCriteria project
        (comparisonQuery (.projectTag ["app"]) .equal))) = [.ok true, .ok false] ∧
    (taggedGraph.projects.map (fun project =>
      taggedGraph.doesProjectMatchCriteria project
        (comparisonQuery (.projectTag ["app"]) .notEqual))) = [.ok true, .ok false] :=
  ⟨rfl, rfl⟩

end Moon.Proofs
