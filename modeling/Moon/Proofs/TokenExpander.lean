import Mathlib.Data.Set.Card
import Moon.Lib.Except
import Moon.TokenExpander

/-!
# Expanding tokens comes to an end

The value of a variable may have tokens in it, or parts of tokens that the text around it completes.
Neither the variables nor the functions of a task may lead back to themselves.
-/

namespace Moon.Proofs

open Lib List ExpanderContext

section

open Finset

variable {text a : Text}

/-! ### Patterns -/

lemma eq_of_tokenVar {var : TokenVariable}
    (h : tokenVar text = some (var, a)) : text = var.name.toList ++ a := by
  obtain ⟨f, hf, heq⟩ := Option.map_eq_some_iff.mp h
  obtain ⟨rfl, rfl⟩ := Prod.mk.inj heq
  have hs : f.name.toList.isPrefixOf text := by
    simpa using find?_some hf
  obtain ⟨rest, rfl⟩ := isPrefixOf_iff_prefix.mp hs
  rw [drop_left]

lemma matcherOk_tokenVar : MatcherOk '$' tokenVar where
  taken text var a h := by
    refine ⟨var.name.toList, eq_of_tokenVar h, ?_⟩
    cases var <;> decide

lemma notMem_takeWhile {c : Char} {p : Char → Bool} (h : p c = false) (text : Text) :
    c ∉ text.takeWhile p := by
  intro hm
  rw [all_eq_true.mp all_takeWhile c hm] at h
  cases h

lemma eq_of_tokenFunc {call : TokenCall} (h : tokenFunc text = some (call, a)) :
    text = call.behind ++ a ∧ '@' ∉ call.behind := by
  unfold tokenFunc at h
  dsimp only at h
  split at h
  next i hi =>
    split at h
    next rest hr =>
      split at h
      next => cases h
      next =>
        cases h
        constructor
        · have ht : text = text.takeWhile isFuncChar ++ '(' :: i := by
            rw [← hi, takeWhile_append_dropWhile]
          have hi' : i = i.takeWhile isArgChar ++ ')' :: a := by
            rw [← hr, takeWhile_append_dropWhile]
          simp only [TokenCall.behind, append_assoc, cons_append, nil_append]
          rw [← hi']
          exact ht
        · have hf := notMem_takeWhile (c := '@') (p := isFuncChar) (by decide) text
          have ha := notMem_takeWhile (c := '@') (p := isArgChar) (by decide) i
          simp [TokenCall.behind, hf, ha]
    next => cases h
  next => cases h

lemma matcherOk_tokenFunc : MatcherOk '@' tokenFunc where
  taken _ call _ h := ⟨call.behind, eq_of_tokenFunc h⟩

section

variable (c : ExpanderContext) (task : UnexpandedTask)

/-- A variable whose value another one can arise from. -/
def Mentions (var other : TokenVariable) : Prop :=
  ∃ now value, c.variableValue task now var = .ok value ∧ Arises '$' tokenVar value other

/-- No variable leads back to itself, from this one on. -/
def VariableEnds (var : TokenVariable) : Prop :=
  Acc (fun other var => Mentions c task var other) var

/-- The variables that can arise from a text, directly or through others, come to an end. -/
def Settles (text : Text) : Prop :=
  ∀ var, Arises '$' tokenVar text var → VariableEnds c task var

/-- One variable of the text is replaced. -/
def Replaces (text text' : Text) : Prop :=
  ∃ before var after now value, firstToken '$' tokenVar text = some (before, var, after) ∧
    c.variableValue task now var = .ok value ∧ text' = before ++ value ++ after

variable {c task}

lemma dollar_notMem_clock (now : ClockReading) : '$' ∉ now.date ++ now.time ++ now.timestamp := by
  intro hm
  have hd := now.digits '$' hm
  revert hd
  decide

variable (c task) in
lemma exists_count_lt (var : TokenVariable) : ∃ b, ∀ now v,
    c.variableValue task now var = .ok v → v.count '$' < b := by
  have hf : (∀ now n', c.variableValue task now var = c.variableValue task n' var) → ∃ b, ∀ now v,
        c.variableValue task now var = .ok v → v.count '$' < b := by
    intro hs
    by_cases hv : ∃ now v, c.variableValue task now var = .ok v
    · obtain ⟨now, v, hv⟩ := hv
      refine ⟨v.count '$' + 1, fun n' value' hv' => ?_⟩
      rw [hs n' now, hv] at hv'
      cases hv'
      exact Nat.lt_succ_self _
    · exact ⟨0, fun now v h => absurd ⟨now, v, h⟩ hv⟩
  have hc : (∀ now v, c.variableValue task now var = .ok v → '$' ∉ v) →
      ∃ b, ∀ now v, c.variableValue task now var = .ok v → v.count '$' < b := by
    intro hn
    refine ⟨1, fun now v hv => ?_⟩
    rw [count_eq_zero.mpr (hn now v hv)]
    exact Nat.zero_lt_one
  cases var
  case timestamp | datetime | date | time =>
    refine hc (fun now v hv => ?_)
    cases hv
    have hn := dollar_notMem_clock now
    simp only [mem_append, not_or] at hn
    simp [hn]
  all_goals exact hf (fun now n' => rfl)

variable (c task) in
/-- How many variables another one leads to. -/
noncomputable def variableRank (var : TokenVariable) : Nat :=
  {other | Relation.TransGen (Mentions c task) var other}.ncard

lemma not_rel_self {α : Type} {r : α → α → Prop} {x : α} (h : Acc r x) : ¬ r x x := by
  induction h with
  | intro x _ ih => exact fun hr => ih x hr hr

lemma variableRank_lt {var other : TokenVariable} (h : VariableEnds c task var)
    (hm : Mentions c task var other) : variableRank c task other < variableRank c task var := by
  have hirr : ¬ Relation.TransGen (Mentions c task) other other := by
    intro ht
    exact not_rel_self (h.inv hm).transGen (Relation.transGen_swap.mp ht)
  exact Set.ncard_lt_ncard ⟨fun o ho => .head hm ho, fun hs => hirr (hs (.single hm))⟩
    (Set.toFinite _)

variable (c task) in
lemma exists_weight : ∃ weight : TokenVariable → Nat, BddAbove (Set.range weight) ∧
    ∀ var now v, VariableEnds c task var → c.variableValue task now var = .ok v →
      load '$' tokenVar weight v < weight var := by
  choose bound hb using exists_count_lt c task
  refine ⟨fun var => (univ.sup bound) ^ variableRank c task var,
    (Set.finite_range _).bddAbove, ?_⟩
  intro var now v he hv
  have hc : v.count '$' < univ.sup bound :=
    Nat.lt_of_lt_of_le (hb var now v hv) (le_sup (mem_univ var))
  exact load_lt_of_rank hc (fun o ho => variableRank_lt he ⟨now, v, hv, ho⟩)

lemma Settles.replaces {text' : Text} (h : Settles c task text) (hr : Replaces c task text text') :
    Settles c task text' := by
  obtain ⟨b, var, a, now, v, hf, hv, rfl⟩ := hr
  obtain ⟨behind, rfl, hm⟩ := eq_of_firstToken hf
  intro other ho
  rcases arises_append ho with ho | ho
  · rcases arises_append ho with ho | ho
    · exact h other (ho.before_sigil _)
    · exact (h var (arises_of_matcher hm b)).inv ⟨now, v, hv, ho⟩
  · rw [eq_of_tokenVar hm] at h
    exact h other (by simpa using ho.of_suffix (b ++ '$' :: var.name.toList))

lemma finishes_readClock : Finishes (fun _ => c.readClock) (fun _ => True) :=
  Finishes.state (fun _ => trivial)

lemma finishes_replaceVariable (hf : firstToken '$' tokenVar text ≠ none) :
    Finishes (fun _ => c.replaceVariable task text) (Replaces c task text) := by
  unfold replaceVariable
  cases hft : firstToken '$' tokenVar text with
  | none => exact absurd hft hf
  | some found =>
    obtain ⟨b, var, a⟩ := found
    refine finishes_readClock.bind (fun now _ => ?_)
    refine (Finishes.ofExcept (Q := fun v =>
      c.variableValue task now var = .ok v) (fun v hv => hv)).bind ?_
    exact fun v hv => Finishes.pure ⟨b, var, a, now, v, hft, hv, rfl⟩

/-- The variables of a text that settles are replaced one by one until none is left. -/
lemma finishes_replaceVariables (h : Settles c task text) :
    Finishes (fun k => c.replaceVariables task k text)
      (Relation.ReflTransGen (Replaces c task) text) := by
  obtain ⟨weight, hb, hw⟩ := exists_weight c task
  induction hl : load '$' tokenVar weight text using Nat.strongRecOn generalizing text with
  | _ n ih =>
    refine Finishes.succ ?_
    unfold replaceVariables
    by_cases hf : firstToken '$' tokenVar text = none
    · simp only [hasTokenVariable, hf, Option.isSome_none, Bool.false_eq_true, if_false]
      exact Finishes.pure .refl
    · simp only [hasTokenVariable, Option.isSome_iff_ne_none.mpr hf, if_true]
      refine (finishes_replaceVariable hf).bind (fun t' hr => ?_)
      have hlt : load '$' tokenVar weight t' < n := by
        obtain ⟨b, var, a, now, v, hft, hv, rfl⟩ := hr
        obtain ⟨behind, ht, hm⟩ := eq_of_firstToken hft
        have he := h var (ht ▸ arises_of_matcher hm b)
        rw [← hl]
        exact load_replace_lt matcherOk_tokenVar hb hft (hw var now v he hv)
      exact (ih _ hlt (h.replaces hr) rfl).mono (fun _ => .head hr)

end

end

variable {path text func t v : Text} {r : ExpandedResult} {var : TokenVariable}

/-! ### When the expansion of a task ends -/

/-- No function token can arise from the text. -/
def CallFree (text : Text) : Prop := ∀ call, ¬ Arises '@' tokenFunc text call

/-- A file or a glob that a call refers to by its index. -/
def IndexedBy (task : UnexpandedTask) (call : TokenCall) (path : Text) : Prop :=
  ∃ index, parseUsize call.arg = some index ∧
    (call.func = "in".toList ∧ (∃ params, task.inputs[index]? = some (.file path params) ∨
        ∃ params, task.inputs[index]? = some (.glob path params)) ∨
      call.func = "out".toList ∧ ∃ value, value.toList = path ∧
        (∃ optional, task.outputs[index]? = some (.file value optional) ∨
          ∃ optional, task.outputs[index]? = some (.glob value optional)))

/-- A function that a call refers to by its index. -/
def Refers (task : UnexpandedTask) (call other : TokenCall) : Prop :=
  ∃ index func before after, parseUsize call.arg = some index ∧
    firstToken '@' tokenFunc func = some (before, other, after) ∧
    (call.func = "in".toList ∧ task.inputs[index]? = some (.tokenFunc func) ∨
      call.func = "out".toList ∧
        ∃ value, task.outputs[index]? = some (.tokenFunc value) ∧ value.toList = func)

/-- No call leads back to itself, from this one on. -/
def CallEnds (task : UnexpandedTask) (call : TokenCall) : Prop :=
  Acc (fun other call => Refers task call other) call

/-- The file group that a call stands for, and the format. -/
def GroupOf (task : UnexpandedTask) (call : TokenCall) (groupId : Text) (format : GroupFormat) :
    Prop :=
  (groupId = call.arg ∧ ((∃ func, groupFunctions.find? (·.1 == call.func) = some (func, format)) ∨
      call.func = "envs".toList ∧ format = .envs)) ∨
    call.func = "in".toList ∧ ∃ index inputFormat, parseUsize call.arg = some index ∧
      task.inputs[index]? = some (.fileGroup groupId inputFormat) ∧
      format = inputFormat.toGroupFormat

/-- A path of a file group in the format. -/
def GroupPath (scope : TokenScope) (group : FileGroup) (format : GroupFormat) (path : Text) :
    Prop :=
  ∃ token result, updateResultForFileGroup scope group format { token := some token } = .ok result ∧
    path ∈ result.files ++ result.globs

section

variable (c : ExpanderContext) (task : UnexpandedTask)

/-- A text that adds no function to a script, and no variable that leads back to itself. -/
structure QuietText (text : Text) : Prop where
  calls : CallFree text
  vars : ∀ var, ArisesCut '$' tokenVar '@' text var → VariableEnds c task var

/-- The path adds neither where it is put in for a call. -/
def ResolvesQuiet (path : Text) : Prop :=
  ∀ text, c.resolvePathForTask task path = .ok text → QuietText c task text

/-- What a call stands for, of a text, a group, a path or the metadata. -/
structure CallQuiet (call : TokenCall) : Prop where
  groups : ∀ groupId format group, GroupOf task call groupId format →
    c.project.getFileGroup groupId = .ok group → ∀ path, GroupPath .script group format path →
      ResolvesQuiet c task path
  indexed : ∀ path, IndexedBy task call path → ∀ created, Relation.ReflTransGen (Replaces c task)
    (c.toWorkspaceRelative c.project.source path) created →
      ResolvesQuiet c task (c.substitute (task.env.extend task.env) created)
  metadata : call.func = "meta".toList → ∀ value, c.metaValue call.arg = some value →
    QuietText c task value

/-- The functions of a script come to an end, and so do the variables that are then there. -/
structure ScriptEnds (script : Text) : Prop where
  calls : ∀ call, Arises '@' tokenFunc script call → CallEnds task call ∧
    ∀ other, Relation.ReflTransGen (Refers task) call other → CallQuiet c task other
  vars : ∀ var, ArisesCut '$' tokenVar '@' script var → VariableEnds c task var

/-- The paths of inputs and outputs in which variables are replaced. -/
def createdPaths : List Text :=
  task.inputs.flatMap (fun input =>
    match input with
    | .file path _ | .glob path _ => [c.toWorkspaceRelative c.project.source path]
    | .project id none filter =>
      match c.getUnexpanded id with
      | .ok project =>
        if filter.isEmpty then [c.joinSource project.source "**/*".toList]
        else filter.map (c.toWorkspaceRelative project.source)
      | .error _ => []
    | _ => []) ++
  task.outputs.flatMap (fun output =>
    match output with
    | .file path _ | .glob path _ => [c.toWorkspaceRelative c.project.source path.toList]
    | _ => [])

/-- Every text of the task comes to an end, with what is put in for its variables and
functions. -/
structure Expandable (baseArgs : Option (List Text)) (baseEnv : Option EnvMap) : Prop where
  command : Settles c task task.command.getValue.toList
  commandMeta : ∀ call value, firstToken '@' tokenFunc task.command.getValue.toList =
    some ([], call, []) → call.func = "meta".toList → c.metaValue call.arg = some value →
      Settles c task value
  script : ∀ script, task.script = some script → Settles c task script.toList ∧
    (hasTokenFunction .script script.toList = true → ScriptEnds c task script.toList)
  args : ∀ arg ∈ baseArgs.getD (task.args.map (fun arg => arg.getValue.toList)),
    Settles c task arg ∧
      ∀ call, firstToken '@' tokenFunc arg = some ([], call, []) → CallEnds task call
  env : ∀ entry ∈ baseEnv.getD task.env, ∀ value, entry.2 = some value →
    Settles c task value.toList
  paths : ∀ path ∈ createdPaths c task, Settles c task path

end

/-! ### Paths -/

variable {c : ExpanderContext} {task : UnexpandedTask} {scope : TokenScope}

def Ends {α : Type} (f : Nat → ExpandM α) : Prop := Finishes f (fun _ => True)

lemma Ends.map {α β : Type} {f : Nat → ExpandM α} (h : Ends f) (g : α → β) :
    Ends (fun k => do let a ← f k; return g a) :=
  h.bind (fun _ _ => Finishes.pure trivial)

lemma ends_ofExcept {α : Type} (x : Except ExpandError α) :
    Ends (fun _ => (LoopM.ofExcept x : ExpandM α)) :=
  Finishes.ofExcept (fun _ _ => trivial)

section

variable (h : Settles c task text)
include h

lemma ends_replaceVariables : Ends (fun k => c.replaceVariables task k text) :=
  (finishes_replaceVariables h).mono (fun _ _ => trivial)

lemma ends_substitute (env : EnvMap) :
    Ends (fun k => c.replaceVariablesAndSubstitute task k env text) :=
  (ends_replaceVariables h).map _

lemma ends_scan : Ends (fun k => c.replaceVariablesAndScan task k text) := by
  refine (ends_replaceVariables h).bind (fun v _ => ?_)
  dsimp only
  split
  · exact Ends.map (Finishes.state (fun _ => trivial)) _
  · exact Finishes.pure trivial

end

lemma callFree_of_notMem (h : '@' ∉ text) : CallFree text := fun call => not_arises_of_notMem h call

/-! ### What a function stands for -/

variable (c task scope) in
/-- What some calls stand for. -/
structure Sources (C : TokenCall → Prop) (K V : Text → Prop) : Prop where
  groups : ∀ call groupId format group, C call → GroupOf task call groupId format →
    c.project.getFileGroup groupId = .ok group → ∀ path, GroupPath scope group format path → K path
  indexed : [TokenScope.script, .args].contains scope = true → ∀ call path, C call →
    IndexedBy task call path → Finishes (fun fuel =>
      c.createPathForTask task fuel (c.toWorkspaceRelative c.project.source path)) K
  metadata : ∀ call value, C call → call.func = "meta".toList →
    c.metaValue call.arg = some value → V value

/-- The result of a function, with the token that it is put in for. -/
structure ResultOk (K V : Text → Prop) (token : Text) (result : ExpandedResult) : Prop where
  token : result.token = some token
  paths : ∀ path ∈ result.files ++ result.globs, K path
  value : ∀ value, result.value = some value → V value

lemma updateResult_keeps {group : FileGroup} {format : GroupFormat} {result' : ExpandedResult}
    (h : updateResultForFileGroup scope group format r = .ok result') :
    result'.token = r.token ∧ result'.value = r.value := by
  unfold updateResultForFileGroup at h
  cases format with
  | root =>
    obtain ⟨path, -, heq⟩ := bind_eq_ok h
    cases heq
    exact ⟨rfl, rfl⟩
  | dirs | files =>
    obtain ⟨paths, -, heq⟩ := bind_eq_ok h
    cases heq
    exact ⟨rfl, rfl⟩
  | envs =>
    dsimp only at h
    split at h
    all_goals
      cases h
      exact ⟨rfl, rfl⟩
  | globs =>
    obtain ⟨globs, -, heq⟩ := bind_eq_ok h
    cases heq
    exact ⟨rfl, rfl⟩
  | group =>
    cases h
    exact ⟨rfl, rfl⟩

section

lemma finishes_checkScope (t : Text) (al : List TokenScope) :
    Finishes (fun _ => checkScope task scope t al) (fun _ => al.contains scope = true) := by
  unfold checkScope
  split
  next h => exact Finishes.pure h
  next => exact Finishes.throw _ _

lemma finishes_parseIndex (t v : Text) : Finishes (fun _ => parseIndex task t v)
      (fun i => parseUsize v = some i) := by
  unfold parseIndex
  cases hval : parseUsize v with
  | none => exact Finishes.throw _ _
  | some i => exact Finishes.pure rfl

variable {C : TokenCall → Prop} {K V : Text → Prop} {call : TokenCall}
  (hsources : Sources c task scope C K V) (hcall : C call)
include hsources hcall

lemma finishes_fileGroupResult {g : Text} {fo : GroupFormat} (hg : GroupOf task call g fo) :
    Finishes (fun _ => c.fileGroupResult scope g fo { token := some call.token })
      (ResultOk K V call.token) := by
  refine (Finishes.ofExcept (Q := fun gr => c.project.getFileGroup g = .ok gr)
    (fun _ h => h)).bind (fun gr hgr => Finishes.ofExcept (fun r hr => ?_))
  obtain ⟨ht, hvl⟩ := updateResult_keeps hr
  refine ⟨ht, fun path hp => hsources.groups call g fo gr hcall hg hgr path ⟨_, r, hr, hp⟩,
    fun v hv => ?_⟩
  rw [hvl] at hv
  cases hv

lemma finishes_refer (hs : [TokenScope.script, .args].contains scope = true)
    (hpt : IndexedBy task call path) {re : Text → ExpandedResult}
    (ht : ∀ cr, (re cr).token = some call.token ∧ (re cr).value = none)
    (hp : ∀ cr, (re cr).files ++ (re cr).globs = [cr]) :
    Finishes (fun k => do
      let cr ← c.createPathForTask task k (c.toWorkspaceRelative c.project.source path)
      return re cr) (ResultOk K V call.token) := by
  refine (hsources.indexed hs call path hcall hpt).bind (fun cr hc => Finishes.pure ?_)
  refine ⟨(ht cr).1, ?_, fun v hv => by simp [(ht cr).2] at hv⟩
  rw [hp cr]
  exact forall_mem_singleton.mpr hc

omit hsources hcall in
lemma finishes_referToFunction {replace : Nat → Text → ExpandM ExpandedResult}
    (h : ∃ o, Finishes (fun k => replace k func) (ResultOk K V o)) (t : Text) :
    Finishes (fun k => referToFunction (replace k) t func) (ResultOk K V t) := by
  obtain ⟨o, h⟩ := h
  exact h.bind (fun _ hi => Finishes.pure ⟨rfl, hi.paths, fun v hv => by cases hv⟩)

section

variable {replace : Nat → Text → ExpandM ExpandedResult}

lemma finishes_replaceIn (hs : [TokenScope.script, .args].contains scope = true)
    (hin : call.func = "in".toList)
    (hr : ∀ index func, parseUsize call.arg = some index →
      task.inputs[index]? = some (.tokenFunc func) →
        ∃ t, Finishes (fun k => replace k func) (ResultOk K V t)) :
    Finishes (fun k => c.replaceIn task scope (replace k) k call) (ResultOk K V call.token) := by
  refine (finishes_parseIndex call.token call.arg).bind (fun index hid => ?_)
  cases hi : task.inputs[index]? with
  | none => exact Finishes.throw _ _
  | some i =>
    cases i with
    | file path params =>
      exact finishes_refer hsources hcall hs ⟨index, hid, .inl ⟨hin, params, .inl hi⟩⟩
        (fun _ => ⟨rfl, rfl⟩) (fun _ => rfl)
    | glob path params =>
      exact finishes_refer hsources hcall hs ⟨index, hid, .inl ⟨hin, {}, .inr ⟨params, hi⟩⟩⟩
        (fun _ => ⟨rfl, rfl⟩) (fun _ => rfl)
    | fileGroup g format =>
      exact finishes_fileGroupResult hsources hcall (.inr ⟨hin, index, format, hid, hi, rfl⟩)
    | tokenFunc func => exact finishes_referToFunction (hr index func hid hi) call.token
    | envVar | envVarGlob | project | tokenVar => exact Finishes.throw _ _

lemma finishes_replaceOut (hs : [TokenScope.script, .args].contains scope = true)
    (hout : call.func = "out".toList)
    (hr : ∀ i func, parseUsize call.arg = some i → task.outputs[i]? = some (.tokenFunc func) →
        ∃ t, Finishes (fun k => replace k func.toList) (ResultOk K V t)) :
    Finishes (fun k => c.replaceOut task (replace k) k call) (ResultOk K V call.token) := by
  refine (finishes_parseIndex call.token call.arg).bind (fun i hi => ?_)
  cases ho : task.outputs[i]? with
  | none => exact Finishes.throw _ _
  | some o =>
    cases o with
    | file path optional =>
      exact finishes_refer hsources hcall hs
        ⟨i, hi, .inr ⟨hout, path, rfl, optional, .inl ho⟩⟩ (fun _ => ⟨rfl, rfl⟩) (fun _ => rfl)
    | glob path optional =>
      exact finishes_refer hsources hcall hs
        ⟨i, hi, .inr ⟨hout, path, rfl, none, .inr ⟨optional, ho⟩⟩⟩ (fun _ => ⟨rfl, rfl⟩)
        (fun _ => rfl)
    | tokenFunc func => exact finishes_referToFunction (hr i func hi ho) call.token
    | tokenVar => exact Finishes.throw _ _

/-- A call is replaced where the functions that it may refer to are. -/
lemma finishes_replaceCall
    (hr : [TokenScope.script, .args].contains scope = true → ∀ index func,
      parseUsize call.arg = some index →
      (call.func = "in".toList ∧ task.inputs[index]? = some (.tokenFunc func) ∨
        call.func = "out".toList ∧
          ∃ value, task.outputs[index]? = some (.tokenFunc value) ∧ value.toList = func) →
      ∃ t, Finishes (fun k => replace k func) (ResultOk K V t)) :
    Finishes (fun k => c.replaceCall task scope (replace k) k call) (ResultOk K V call.token) := by
  unfold replaceCall
  split
  next fn format hf =>
    exact (finishes_checkScope _ _).bind (fun _ _ =>
      finishes_fileGroupResult hsources hcall (.inl ⟨rfl, .inl ⟨fn, hf⟩⟩))
  next =>
    split
    next hin =>
      refine (finishes_checkScope _ _).bind (fun _ hs =>
        finishes_replaceIn hsources hcall hs hin ?_)
      exact fun i o hi ho => hr hs i o hi (.inl ⟨hin, ho⟩)
    next =>
    split
    next hot =>
      refine (finishes_checkScope _ _).bind (fun _ hs =>
        finishes_replaceOut hsources hcall hs hot ?_)
      exact fun i v hi hv => hr hs i v.toList hi (.inr ⟨hot, v, hv, rfl⟩)
    next =>
    split
    next he =>
      exact (finishes_checkScope _ _).bind (fun _ _ =>
        finishes_fileGroupResult hsources hcall (.inl ⟨rfl, .inr ⟨he, rfl⟩⟩))
    next =>
    split
    next hm =>
      refine (finishes_checkScope _ _).bind (fun _ _ => Finishes.pure ?_)
      exact ⟨rfl, by simp, fun v hv => hsources.metadata call v hcall hm hv⟩
    next => exact Finishes.throw _ _

end

variable {b a : Text} (hf : firstToken '@' tokenFunc func = some (b, call, a))
include hf

lemma finishes_replaceFunction (hen : CallEnds task call)
    (hrefers : ∀ call other, C call → Refers task call other → C other) :
    Finishes (fun k => c.replaceFunction task scope k func) (ResultOk K V call.token) := by
  induction hen generalizing func b a with
  | intro call _ ih =>
    refine Finishes.succ ?_
    simp only [replaceFunction, hf]
    refine finishes_replaceCall hsources hcall (fun _ index o hi ho => ?_)
    cases hof : firstToken '@' tokenFunc o with
    | none =>
      refine ⟨[], Finishes.succ ?_⟩
      simp only [replaceFunction, hof]
      exact Finishes.throw _ _
    | some found =>
      obtain ⟨b', other, a'⟩ := found
      have href : Refers task call other := ⟨index, o, b', a', hi, hof, ho⟩
      exact ⟨other.token, ih other href (hrefers call other hcall href) hof⟩

/-- Where nothing can be referred to by its index, a call needs no end. -/
lemma finishes_replaceFunction_of_scope (hs : scope ∉ [TokenScope.script, .args]) :
    Finishes (fun k => c.replaceFunction task scope k func) (ResultOk K V call.token) := by
  refine Finishes.succ ?_
  simp only [replaceFunction, hf]
  exact finishes_replaceCall hsources hcall (fun h => absurd (contains_iff_mem.mp h) hs)

end

/-! ### Scripts -/

lemma mem_createdPaths (h : IndexedBy task call path) :
    c.toWorkspaceRelative c.project.source path ∈ createdPaths c task := by
  obtain ⟨index, -, ⟨-, params, hi⟩ | ⟨-, value, rfl, optional, hi⟩⟩ := h
  · refine mem_append_left _ (mem_flatMap.mpr ?_)
    rcases hi with hi | ⟨params, hi⟩
    · exact ⟨_, mem_of_getElem? hi, mem_singleton.mpr rfl⟩
    · exact ⟨_, mem_of_getElem? hi, mem_singleton.mpr rfl⟩
  · refine mem_append_right _ (mem_flatMap.mpr ?_)
    rcases hi with hi | ⟨optional, hi⟩
    · exact ⟨_, mem_of_getElem? hi, mem_singleton.mpr rfl⟩
    · exact ⟨_, mem_of_getElem? hi, mem_singleton.mpr rfl⟩

lemma QuietText.append {more : Text} (h : QuietText c task text) (hm : QuietText c task more) :
    QuietText c task (text ++ more) where
  calls call ha := (arises_append ha).elim (h.calls call) (hm.calls call)
  vars var ha := (arisesCut_append ha).elim (h.vars var) (hm.vars var)

lemma quiet_of_notMem (hc : '@' ∉ text) (hv : '$' ∉ text) : QuietText c task text :=
  ⟨callFree_of_notMem hc, fun _ ha => absurd ha (not_arisesCut_of_notMem hv)⟩

namespace ScriptEnds

variable {more : Text}

lemma of_quiet (h : QuietText c task text) : ScriptEnds c task text :=
  ⟨fun call ha => absurd ha (h.calls call), h.vars⟩

lemma append (h : ScriptEnds c task text) (hm : ScriptEnds c task more) :
    ScriptEnds c task (text ++ more) where
  calls call ha := (arises_append ha).elim (h.calls call) (hm.calls call)
  vars var ha := (arisesCut_append ha).elim (h.vars var) (hm.vars var)

lemma before (h : ScriptEnds c task (text ++ '@' :: more)) : ScriptEnds c task text where
  calls call ha := h.calls call (ha.before_sigil more)
  vars var ha := h.vars var (ha.before_mark more)

lemma suffix (h : ScriptEnds c task (text ++ more)) : ScriptEnds c task more where
  calls call ha := h.calls call (ha.of_suffix text)
  vars var ha := h.vars var (ha.of_suffix text)

/-- What is put in for a token leaves a script that ends. -/
lemma replaceAll {taken value : Text} (h : ScriptEnds c task text) (hv : QuietText c task value) :
    ScriptEnds c task (Lib.replaceAll ('@' :: taken) value text) :=
  replaceAll_induct (fun _ _ => append) (fun _ _ => before) (fun _ _ => suffix) (of_quiet hv) h

lemma settles (h : ScriptEnds c task text) : Settles c task text :=
  fun var ha => h.vars var ⟨text, .inl rfl, ha⟩

end ScriptEnds

lemma sources_script (hpaths : ∀ path ∈ createdPaths c task, Settles c task path) :
    Sources c task .script
      (fun call => ∀ other, Relation.ReflTransGen (Refers task) call other → CallQuiet c task other)
      (ResolvesQuiet c task) (QuietText c task) where
  groups call groupId format group hcall := (hcall call .refl).groups groupId format group
  indexed _ call path hcall hi := by
    refine (finishes_replaceVariables (hpaths _ (mem_createdPaths hi))).bind ?_
    exact fun created hr => Finishes.pure ((hcall call .refl).indexed path hi created hr)
  metadata call value hcall := fun hm => (hcall call .refl).metadata hm value

lemma finishes_resolveItems (h : ResultOk (ResolvesQuiet c task) (QuietText c task) t r) :
    Finishes (fun _ => c.resolveItems task r) (fun xs => ∀ x ∈ xs, QuietText c task x) := by
  have hp : ∀ ps : List Text, (∀ path ∈ ps, path ∈ r.files ++ r.globs) →
      Finishes (fun _ => ps.mapM (fun path =>
        (LoopM.ofExcept (c.resolvePathForTask task path) : ExpandM Text)))
        (fun xs => ∀ x ∈ xs, QuietText c task x) := by
    intro ps hm
    exact Finishes.mapM (fun path hpt =>
      Finishes.ofExcept (fun text ht => h.paths path (hm path hpt) text ht))
  refine (hp r.files (fun _ => mem_append_left _)).bind (fun files hf => ?_)
  refine (hp r.globs (fun _ => mem_append_right _)).bind (fun globs hg => ?_)
  refine Finishes.pure (forall_mem_append.mpr ⟨forall_mem_append.mpr ⟨hf, hg⟩, ?_⟩)
  exact fun v hv => h.value v (Option.mem_toList.mp hv)

lemma ends_resolveItems (r : ExpandedResult) : Ends (fun _ => c.resolveItems task r) := by
  have hp : ∀ ps : List Text, Ends (fun _ => ps.mapM (fun path =>
      (LoopM.ofExcept (c.resolvePathForTask task path) : ExpandM Text))) :=
    fun ps => (Finishes.mapM (fun _ _ => ends_ofExcept _)).mono (fun _ _ => trivial)
  exact (hp r.files).bind (fun _ _ => (hp r.globs).map _)

lemma ends_inferInputs (r : ExpandedResult) : Ends (fun _ => inferInputsFromResult task r) :=
  Finishes.state (fun _ => trivial)

/-- Each round takes the calls of one token out of the script and puts no other in. -/
lemma finishes_replaceFunctions (hpaths : ∀ path ∈ createdPaths c task, Settles c task path)
    (hs : ScriptEnds c task text) :
    Finishes (fun k => c.replaceFunctions task k text) (ScriptEnds c task) := by
  have hb : BddAbove (Set.range (fun _ : TokenCall => 1)) :=
    ⟨1, by rintro _ ⟨_, rfl⟩; exact Nat.le_refl 1⟩
  induction hl : load '@' tokenFunc (fun _ => 1) text using Nat.strongRecOn
    generalizing text with
  | _ n ih =>
    refine Finishes.succ ?_
    unfold replaceFunctions
    cases hf : firstToken '@' tokenFunc text with
    | none =>
      simp only [hasTokenFunction, hf, Bool.false_eq_true, if_false]
      exact Finishes.pure hs
    | some f =>
      obtain ⟨b, call, a⟩ := f
      obtain ⟨behind, rfl, hm⟩ := eq_of_firstToken hf
      obtain ⟨hends, hquiet⟩ := hs.calls call (arises_of_matcher hm b)
      simp only [hasTokenFunction, hf, beq_self_eq_true, Bool.or_true, if_true]
      refine (finishes_replaceFunction (sources_script hpaths) hquiet hf hends ?_).bind
        (fun r hr => ?_)
      · exact fun _ _ hcall href other ho => hcall other (.head href ho)
      refine (ends_inferInputs r).bind (fun _ _ => ?_)
      rw [hr.token]
      refine (finishes_resolveItems hr).bind (fun items hitm => ?_)
      have hvalue : QuietText c task ([' '].intercalate items) :=
        intercalate_induct (fun _ _ => QuietText.append) (quiet_of_notMem (by simp) (by simp))
          (quiet_of_notMem (by decide) (by decide)) hitm
      refine ih _ ?_ (hs.replaceAll hvalue) rfl
      obtain ⟨rfl, hn⟩ := eq_of_tokenFunc hm
      rw [← hl]
      exact load_replaceAll_lt matcherOk_tokenFunc hb hm hn (load_eq_zero hvalue.calls)
        Nat.zero_lt_one

/-! ### The values of a task -/

lemma ends_replaceFunction_of_scope (hs : scope ∉ [TokenScope.script, .args]) (func : Text) :
    Ends (fun k => c.replaceFunction task scope k func) := by
  cases hf : firstToken '@' tokenFunc func with
  | none =>
    refine Finishes.succ ?_
    simp only [replaceFunction, hf]
    exact Finishes.throw _ _
  | some found =>
    obtain ⟨b, call, a⟩ := found
    have hsources : Sources c task scope (fun _ => True) (fun _ => True) (fun _ => True) :=
      ⟨fun _ _ _ _ _ _ _ _ _ => trivial, fun h => absurd (contains_iff_mem.mp h) hs,
        fun _ _ _ _ _ => trivial⟩
    exact (finishes_replaceFunction_of_scope hsources trivial hf hs).mono (fun _ _ => trivial)

/-- Outside of scripts a function is the whole value. -/
lemma eq_of_hasTokenFunction (hs : scope ≠ .script) (h : hasTokenFunction scope text = true) :
    ∃ call : TokenCall,
      firstToken '@' tokenFunc text = some ([], call, []) ∧ text = call.token := by
  unfold hasTokenFunction at h
  split at h
  next b call a hf =>
    simp only [beq_false_of_ne hs, Bool.or_false, Bool.and_eq_true, List.isEmpty_iff] at h
    obtain ⟨rfl, rfl⟩ := h
    obtain ⟨behind, rfl, hm⟩ := eq_of_firstToken hf
    obtain ⟨rfl, -⟩ := eq_of_tokenFunc hm
    exact ⟨call, hf, by simp [TokenCall.token]⟩
  next => cases h

lemma ends_expandEnvVar (env : EnvMap) {e : String × Option String}
    (h : ∀ value, e.2 = some value → Settles c task value.toList) :
    Ends (fun k => c.expandEnvVar task k env e) := by
  unfold expandEnvVar
  cases hv : e.2 with
  | none => exact Finishes.pure trivial
  | some v =>
    dsimp only
    split
    · refine (ends_replaceFunction_of_scope (by decide) _).bind (fun r _ => ?_)
      refine (ends_inferInputs r).bind (fun _ _ => ?_)
      exact (ends_resolveItems r).map _
    · exact (ends_substitute (h v hv) env).map _

lemma ends_replaceVariable (text : Text) : Ends (fun _ => c.replaceVariable task text) := by
  unfold replaceVariable
  split
  · exact Finishes.pure trivial
  · refine finishes_readClock.bind (fun now _ => ?_)
    exact (ends_ofExcept _).map _

section

variable {baseArgs : Option (List Text)} {baseEnv : Option EnvMap}
  (h : Expandable c task baseArgs baseEnv)
include h

lemma ends_expandCommand : Ends (fun k => c.expandCommand task k) := by
  unfold expandCommand
  dsimp only
  split
  next hh =>
    obtain ⟨call, hf, htoken⟩ := eq_of_hasTokenFunction (by decide) hh
    have hsources : Sources c task .command (· = call) (fun _ => True) (Settles c task) := by
      refine ⟨fun _ _ _ _ _ _ _ _ _ => trivial, fun hs => absurd hs (by decide), ?_⟩
      rintro _ value rfl hm hv
      exact h.commandMeta _ value hf hm hv
    refine (finishes_replaceFunction_of_scope hsources rfl hf (by decide)).bind (fun r hr => ?_)
    rw [hr.token]
    cases hv : r.value with
    | none => exact ends_scan h.command
    | some value =>
      have hall : replaceAll call.token value call.token = value := by
        have ha := replaceAll_append call.behind value (c := '@') []
        rw [append_nil] at ha
        rw [TokenCall.token, ha]
        exact append_nil value
      rw [htoken]
      simp only [hall]
      exact ends_scan (hr.value value hv)
  next => exact ends_scan h.command

lemma ends_expandScript : Ends (fun k => c.expandScript task k) := by
  unfold expandScript
  cases hs : task.script with
  | none => exact Finishes.throw _ _
  | some s =>
    have hf : Finishes (fun k => c.replaceFunctions task k s.toList) (Settles c task) := by
      cases hh : hasTokenFunction .script s.toList with
      | true =>
        exact (finishes_replaceFunctions h.paths ((h.script s hs).2 hh)).mono
          (fun _ => ScriptEnds.settles)
      | false =>
        refine Finishes.succ ?_
        simp only [replaceFunctions, hh, Bool.false_eq_true, if_false]
        exact Finishes.pure (h.script s hs).1
    exact hf.bind (fun _ ht => ends_scan ht)

lemma ends_expandArgs : Ends (fun k => c.expandArgs task k baseArgs) := by
  have hsources : Sources c task .args (fun _ => True) (fun _ => True) (fun _ => True) :=
    ⟨fun _ _ _ _ _ _ _ _ _ => trivial,
      fun _ _ _ _ hi => ends_substitute (h.paths _ (mem_createdPaths hi)) _,
      fun _ _ _ _ _ => trivial⟩
  have ha : ∀ arg ∈ baseArgs.getD (task.args.map (fun arg => arg.getValue.toList)),
      Ends (fun k => c.expandArg task k arg) := by
    intro arg hm
    obtain ⟨hsettles, hends⟩ := h.args arg hm
    unfold expandArg
    split
    next hh =>
      obtain ⟨call, hf, -⟩ := eq_of_hasTokenFunction (by decide) hh
      refine (finishes_replaceFunction hsources trivial hf (hends call hf)
        (fun _ _ _ _ => trivial)).bind (fun r _ => ?_)
      exact (ends_inferInputs r).bind (fun _ _ => ends_resolveItems r)
    next => exact (ends_scan hsettles).map _
  exact (Finishes.mapM ha).bind (fun _ _ => Finishes.pure trivial)

lemma ends_expandEnv : Ends (fun k => c.expandEnv task k baseEnv) := by
  have henv := h.env
  cases baseEnv with
  | none =>
    -- No variable reads the environment that is taken out.
    have hout : ∀ entry ∈ task.env, ∀ value, entry.2 = some value →
        Settles c { task with env := [] } value.toList := henv
    exact Finishes.foldlM trivial (fun env _ e he => ends_expandEnvVar env (hout e he))
  | some b => exact Finishes.foldlM trivial (fun env _ e he => ends_expandEnvVar env (henv e he))

lemma ends_expandInputs : Ends (fun k => c.expandInputs task k) := by
  refine Finishes.foldlM trivial (fun r _ i hi => ?_)
  have hpaths : ∀ path ∈ createdPaths c { task with inputs := [i], outputs := [] },
      Settles c task path := by
    intro path hp
    simp only [createdPaths, flatMap_cons, flatMap_nil, append_nil] at hp
    exact h.paths path (mem_append_left _ (mem_flatMap.mpr ⟨i, hi, hp⟩))
  unfold expandInput
  cases i with
  | envVar | envVarGlob => exact Finishes.pure trivial
  | file | glob => exact (ends_substitute (hpaths _ (by simp [createdPaths])) _).map _
  | fileGroup group format =>
    exact (ends_ofExcept _).bind (fun _ _ => ends_ofExcept _)
  | project id group filter =>
    refine (Finishes.ofExcept (Q := fun p => c.getUnexpanded id = .ok p) (fun _ hp => hp)).bind
      (fun project hp => ?_)
    cases group with
    | some groupId => exact (ends_ofExcept _).bind (fun _ _ => ends_ofExcept _)
    | none =>
      refine (Finishes.mapM (fun path hm => ends_substitute (hpaths path ?_) _)).bind (fun _ _ =>
        Finishes.pure trivial)
      simpa [createdPaths, hp] using hm
  | tokenFunc func => exact (ends_replaceFunction_of_scope (by decide) func).map _
  | tokenVar var => exact (ends_replaceVariable var).map _

lemma ends_expandOutputs : Ends (fun k => c.expandOutputs task k) := by
  refine Finishes.foldlM trivial (fun r _ o ho => ?_)
  have hpath : ∀ path : String, (∃ optional, o = .file path optional ∨
      ∃ optional, o = .glob path optional) →
      Settles c task (c.toWorkspaceRelative c.project.source path.toList) := by
    rintro path ⟨optional, rfl | ⟨optional, rfl⟩⟩
    · exact h.paths _ (mem_append_right _ (mem_flatMap.mpr ⟨_, ho, mem_singleton.mpr rfl⟩))
    · exact h.paths _ (mem_append_right _ (mem_flatMap.mpr ⟨_, ho, mem_singleton.mpr rfl⟩))
  unfold expandOutput
  cases o with
  | file path optional => exact (ends_substitute (hpath path ⟨optional, .inl rfl⟩) _).map _
  | glob path optional => exact (ends_substitute (hpath path ⟨none, .inr ⟨optional, rfl⟩⟩) _).map _
  | tokenFunc func => exact (ends_replaceFunction_of_scope (by decide) _).map _
  | tokenVar var => exact (ends_replaceVariable _).map _

end

def titledContext (title : String) : ExpanderContext where
  arch := "x86_64".toList
  os := "linux".toList
  osFamily := "unix".toList
  project :=
    { id := "shop".toList, language := "rust".toList, layer := "application".toList
      metadata := some { title := some title.toList, description := some "$projectId app".toList }
      root := .ok "/repo/shop".toList, source := "shop".toList, stack := "backend".toList }
  vcsBranch := "main".toList
  vcsRepository := "moonrepo/moon".toList
  vcsRevision := "HEAD".toList
  workingDir := .ok "/repo".toList
  workspaceRoot := .ok "/repo".toList
  clock _ := ⟨"2026-01-01".toList, "00:00:00".toList, "0".toList, by simp⟩
  substitute _ text := text
  scan text := (text, [])
  envMatching _ := []
  toWorkspaceRelative source path := source ++ '/' :: path
  joinSource source path := source ++ '/' :: path
  stripSource _ := none
  fromProjectRoot := .ok

def titledTask (command : String) (script : Option String) : UnexpandedTask where
  id := "build"
  command := ⟨none, command⟩
  target := Target.new "shop" "build"
  script := script

section

variable {title : String} {script : Option String} {call other : TokenCall}

lemma settles_description : Settles (titledContext title) (titledTask "echo" script)
    "$projectId app".toList := by
  intro var ha
  have hc : "$projectId app".toList = '$' :: "projectId app".toList := by decide
  have hr : runOf '$' "projectId app".toList = "projectId app".toList := by decide
  rw [hc, Arises, hr] at ha
  rcases ha with ⟨-, rest, a, hm⟩ | hrs
  · have hf : tokenVar ("projectId app".toList ++ rest) =
        some (.projectId, ' ' :: 'a' :: 'p' :: 'p' :: rest) := rfl
    cases hf.symm.trans hm
    refine Acc.intro _ (fun o hm => ?_)
    obtain ⟨now, v, hv, ha⟩ := hm
    cases hv
    have hn : '$' ∉ "shop".toList := by decide
    exact absurd ha (not_arises_of_notMem hn o)
  · exact absurd hrs (not_arises_of_notMem (by decide) var)

lemma not_refers_titled : ¬ Refers (titledTask "echo" script) call other := by
  rintro ⟨index, func, b, a, -, -, ⟨-, hi⟩ | ⟨-, v, ho, -⟩⟩
  · simp [titledTask] at hi
  · simp [titledTask] at ho

lemma quiet_description : QuietText (titledContext title) (titledTask "echo" script)
    "$projectId app".toList := by
  refine ⟨callFree_of_notMem (by decide), ?_⟩
  rintro var ⟨start, rfl | hs, ha⟩
  · exact settles_description var ha
  · exact absurd (hs.subset (mem_append_right start (mem_singleton.mpr rfl))) (by decide)

lemma callQuiet_description : CallQuiet (titledContext title) (titledTask "echo" script)
    ⟨"meta".toList, "description".toList⟩ where
  groups groupId format group hg hgr := by cases hgr
  indexed path := by
    rintro ⟨index, -, ⟨-, params, hi⟩ | ⟨-, v, -, optional, hi⟩⟩
    · simp [titledTask] at hi
    · simp [titledTask] at hi
  metadata _ value hv := by
    cases hv
    exact quiet_description

lemma scriptEnds_description : ScriptEnds (titledContext title) (titledTask "echo" script)
    "run @meta(description)".toList := by
  refine ⟨fun call ha => ?_, fun _ ha => absurd ha (not_arisesCut_of_notMem (by decide))⟩
  have hc : "run @meta(description)".toList =
      "run ".toList ++ '@' :: "meta(description)".toList := by decide
  have hr : runOf '@' "meta(description)".toList = "meta(description)".toList := by decide
  rw [hc] at ha
  rcases arises_append ha with ha | ⟨-, rest, a, hm⟩ | ha
  · exact absurd ha (not_arises_of_notMem (by decide) call)
  · rw [hr] at hm
    have hf : tokenFunc ("meta(description)".toList ++ rest) =
        some (⟨"meta".toList, "description".toList⟩, rest) := rfl
    cases hf.symm.trans hm
    refine ⟨Acc.intro _ (fun _ h => absurd h not_refers_titled), fun other ho => ?_⟩
    rcases ho.cases_head with rfl | ⟨_, h, -⟩
    · exact callQuiet_description
    · exact absurd h not_refers_titled
  · exact absurd ha (not_arises_of_notMem (by decide) call)

end

lemma replaceVariables_eq_none {c : ExpanderContext} {task : UnexpandedTask}
    {b a : Text} (hf : firstToken '$' tokenVar text = some (b, var, a))
    (hv : ∀ now, c.variableValue task now var = .ok v)
    (hs : b ++ v ++ a = text) (k : Nat) (s : ExpanderState) :
    ((c.replaceVariables task k text).run s).run = none := by
  have hr : ∀ s, ((c.replaceVariable task text).run s).run =
      some (.ok (text, { s with readings := s.readings + 1 })) := by
    intro s
    unfold replaceVariable
    rw [hf]
    dsimp only
    simp only [hv]
    rw [← hs]
    rfl
  induction k generalizing s with
  | zero => rfl
  | succ k ih =>
    have hh : hasTokenVariable text := by rw [hasTokenVariable, hf]; rfl
    rw [replaceVariables, if_pos hh, StateT.run_bind, ExceptT.run_bind, hr]
    exact ih _

end Moon.Proofs
