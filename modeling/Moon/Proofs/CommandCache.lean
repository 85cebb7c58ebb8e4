import Moon.CommandCache

/-! # Outputs of commands -/

namespace Moon.Proofs

open ProcessCommand List

variable {ts ts' : List String}

lemma texts_inj (h : ts.flatMap HasherWrite.text = ts'.flatMap HasherWrite.text) : ts = ts' := by
  induction ts generalizing ts' with
  | nil =>
    cases ts' with
    | nil => rfl
    | cons text' ts' => simp [HasherWrite.text] at h
  | cons text ts ih =>
    cases ts' with
    | nil => simp [HasherWrite.text] at h
    | cons text' ts' =>
      simp only [HasherWrite.text, flatMap_cons, cons_append, nil_append,
        cons.injEq, HasherWrite.bytes.injEq] at h
      rw [h.2.1, ih h.2.2]

lemma texts_ne_env (e : String × EnvBehavior) (rest : List HasherWrite) :
    ts.flatMap HasherWrite.text ≠ HasherWrite.env e ++ rest := by
  intro h
  match ts with
  | [] => simp [HasherWrite.env, HasherWrite.text] at h
  | [text] => cases hv : e.2 <;> simp [HasherWrite.env, HasherWrite.text, hv] at h
  | text :: next :: ts =>
    cases hv : e.2 <;> simp [HasherWrite.env, HasherWrite.text, hv] at h

lemma env_inj {e e' : String × EnvBehavior} {r r' : List HasherWrite}
    (h : HasherWrite.env e ++ r = HasherWrite.env e' ++ r') : e = e' ∧ r = r' := by
  obtain ⟨key, v⟩ := e
  obtain ⟨key', v'⟩ := e'
  cases v <;> cases v' <;> simp [HasherWrite.env, HasherWrite.text] at h <;> simp [h]

lemma hasherWrites_inj {env en : List (String × EnvBehavior)}
    (h : env.flatMap HasherWrite.env ++ ts.flatMap HasherWrite.text =
      en.flatMap HasherWrite.env ++ ts'.flatMap HasherWrite.text) : env = en ∧ ts = ts' := by
  induction env generalizing en with
  | nil =>
    cases en with
    | nil => exact ⟨rfl, texts_inj h⟩
    | cons e' en =>
      rw [flatMap_cons, append_assoc] at h
      exact absurd h (texts_ne_env e' _)
  | cons e env ih =>
    rw [flatMap_cons, append_assoc] at h
    cases en with
    | nil => exact absurd h.symm (texts_ne_env e _)
    | cons e' en =>
      rw [flatMap_cons, append_assoc] at h
      obtain ⟨rfl, hr⟩ := env_inj h
      obtain ⟨rfl, rfl⟩ := ih hr
      exact ⟨rfl, rfl⟩

/-- The commands start the same process. -/
structure SameInvocation (first second : ProcessCommand) : Prop where
  exe : first.exe = second.exe
  args : first.args = second.args
  env : first.env.Perm second.env
  cwd : first.cwd = second.cwd
  input : first.input = second.input
  shell : first.shell = second.shell
  paths : first.paths = second.paths

def quotedBin : CommandExecutable → Option (Option String)
  | .binary bin => some bin.quotedValue
  | .script _ => none

/-- What equal cache keys say of two commands. -/
structure Alike (first second : ProcessCommand) : Prop where
  exe : quotedBin first.exe = quotedBin second.exe
  args : first.args.map (·.quotedValue) = second.args.map (·.quotedValue)
  cwd : first.cwd.isSome = second.cwd.isSome
  shell : first.shell = second.shell
  paths : first.paths = second.paths

variable {f s : ProcessCommand}

lemma SameInvocation.alike (h : SameInvocation f s) : Alike f s :=
  ⟨by rw [h.exe], by rw [h.args], by rw [h.cwd], h.shell, h.paths⟩

lemma exe_eq {exe e' : CommandExecutable} (hq : quotedBin exe = quotedBin e')
    (ht : exe.text = e'.text) : exe = e' := by
  cases exe with
  | binary bin =>
    cases e' with
    | binary bin' =>
      cases bin
      cases bin'
      cases Option.some.inj hq
      cases ht
      rfl
    | script text' => cases hq
  | script text =>
    cases e' with
    | binary bin' => cases hq
    | script text' => exact congrArg CommandExecutable.script ht

lemma args_eq {a a' : List CommandArg} (hq : a.map (·.quotedValue) = a'.map (·.quotedValue))
    (hv : a.map (·.value) = a'.map (·.value)) : a = a' := by
  induction a generalizing a' with
  | nil =>
    cases a' with
    | nil => rfl
    | cons ar a' => cases hv
  | cons arg a ih =>
    cases a' with
    | nil => cases hv
    | cons ar a' =>
      obtain ⟨hqt, hqts⟩ := cons.inj hq
      obtain ⟨hvl, hr⟩ := cons.inj hv
      have ha : arg = ar := by
        cases arg
        cases ar
        cases hqt
        cases hvl
        rfl
      rw [ha, ih hqts hr]

lemma Alike.sameInvocation (h : Alike f s)
    (hw : f.hasherWrites = s.hasherWrites) : SameInvocation f s := by
  obtain ⟨hen, ht⟩ := hasherWrites_inj hw
  obtain ⟨hex, hr⟩ := cons.inj ht
  have hl : (f.args.map (·.value)).length = (s.args.map (·.value)).length := by
    have hq := congrArg length h.args
    simpa only [length_map] using hq
  obtain ⟨hv, hr⟩ := append_inj hr hl
  have hc : f.cwd.toList.length = s.cwd.toList.length := by
    rw [Option.length_toList, Option.length_toList, h.cwd]
  obtain ⟨hc, hi⟩ := append_inj hr hc
  have hp : ∀ c : ProcessCommand, c.sortedEnv.Perm c.env := fun c => mergeSort_perm c.env _
  refine ⟨exe_eq h.exe hex, args_eq h.args hv, ?_, ?_, hi, h.shell, h.paths⟩
  · exact (hp f).symm.trans (hen ▸ hp s)
  · cases hfst : f.cwd <;> cases hsnd : s.cwd <;> simp_all

variable {host : ProcessHost} {c : ProcessCommand} {o : CommandOutput}

lemma internalExecCaptureOutput_eq_ok_iff :
    c.internalExecCaptureOutput host = .ok o ↔ host.execute c = .ok o ∧
        (c.errorOnNonzero → o.success) := by
  unfold internalExecCaptureOutput handleNonzeroStatus
  cases host.execute c with
  | error error => exact ⟨nofun, nofun⟩
  | ok f =>
    simp only [Except.mapError, bind, Except.bind]
    split_ifs with hr
    · rw [Bool.and_eq_true, Bool.not_eq_true'] at hr
      refine ⟨nofun, fun ⟨hf, hs⟩ => ?_⟩
      cases hf
      rw [hs hr.1] at hr
      cases hr.2
    · refine ⟨fun ho => ?_, fun ho => congrArg Except.ok (Except.ok.inj ho.1)⟩
      cases ho
      refine ⟨rfl, fun her => ?_⟩
      simpa [her] using hr

def executed (events : List RegistryEvent) : List ProcessCommand :=
  events.filterMap (fun event =>
    match event with
    | .exec c => some c
    | .evict _ => none)

def OutputsOk (host : ProcessHost) (events : List RegistryEvent) (cache : OutputCache) : Prop :=
  ∀ key entry, cache key = some entry → entry.producer ∈ executed events ∧
    entry.producer.getCacheKey host = key ∧ host.execute entry.producer = .ok entry.output

variable {es : List RegistryEvent} {cache : OutputCache}

lemma OutputsOk.mono (h : OutputsOk host es cache) (event : RegistryEvent) :
    OutputsOk host (es ++ [event]) cache := by
  intro key e hen
  obtain ⟨hm, hr⟩ := h key e hen
  unfold executed at hm ⊢
  rw [filterMap_append]
  exact ⟨mem_append_left _ hm, hr⟩

lemma OutputsOk.exec (h : OutputsOk host es cache) (c : ProcessCommand) :
    OutputsOk host (es ++ [.exec c]) (c.execCaptureOutput host cache).2 := by
  have hk := h.mono (.exec c)
  unfold execCaptureOutput
  split_ifs
  · exact hk
  · exact hk
  · split
    · exact hk
    · split
      · rename_i o ho
        intro key e hen
        dsimp only at hen
        rw [Function.update_apply] at hen
        split_ifs at hen with hky
        · cases hen
          refine ⟨?_, hky.symm, (internalExecCaptureOutput_eq_ok_iff.mp ho).1⟩
          simp [executed]
        · exact hk key e hen
      · exact hk

lemma OutputsOk.step (h : OutputsOk host es cache) (ev : RegistryEvent) :
    OutputsOk host (es ++ [ev]) (cache.step host ev) := by
  cases ev with
  | exec c => exact h.exec c
  | evict evicted =>
    intro key e hen
    change Function.update cache evicted none key = some e at hen
    rw [Function.update_apply] at hen
    split_ifs at hen
    exact h.mono _ key e hen

lemma cacheOk_run (host : ProcessHost) (es : List RegistryEvent) :
    OutputsOk host es (es.foldl (OutputCache.step host) (fun _ => none)) := by
  induction es using reverseRecOn with
  | nil => exact nofun
  | append_singleton es e ih =>
    rw [foldl_concat]
    exact ih.step e

/-- Whatever was run before: a command that finds an entry was invoked like the command that the
entry is from, and gets the result that it would get without the cache exactly if both are the same
in what the hash does not tell, and no output has to be raised. -/
theorem cached_output_transparent_iff (host : ProcessHost) (events : List RegistryEvent)
    (command : ProcessCommand)
    (hdeterministic : ∀ first second, SameInvocation first second →
      host.execute first = host.execute second)
    (hcollision : ∀ first ∈ executed events, first.getCacheKey host = command.getCacheKey host →
      first.hasherWrites = command.hasherWrites)
    (hpiped : command.continuousPipe = false) (hcaches : command.shouldCacheOutput host = true)
    (cache : OutputCache) (hcache : events.foldl (OutputCache.step host) (fun _ => none) = cache)
    (entry : CachedOutput) (hentry : cache (command.getCacheKey host) = some entry) :
    SameInvocation entry.producer command ∧ (command.execCaptureOutput host cache).1 =
        command.internalExecCaptureOutput host ↔
      Alike entry.producer command ∧
        (command.errorOnNonzero = true → entry.output.success = true) := by
  have ho : OutputsOk host events cache := hcache ▸ cacheOk_run host events
  obtain ⟨hm, hk, hex⟩ := ho _ entry hentry
  have hr : (command.execCaptureOutput host cache).1 = .ok entry.output := by
    simp [execCaptureOutput, hpiped, hcaches, hentry]
  rw [hr, eq_comm, internalExecCaptureOutput_eq_ok_iff]
  constructor
  · rintro ⟨hsm, -, hs⟩
    exact ⟨hsm.alike, hs⟩
  · rintro ⟨ha, hs⟩
    have hsm := ha.sameInvocation (hcollision _ hm hk)
    exact ⟨hsm, hdeterministic _ _ hsm ▸ hex, hs⟩

def catHost : ProcessHost where
  execute c := .ok { exit := .completed (some (if c.input.isEmpty then 1 else 0)) }
  executeContinuous _ := .error (.capture "cat" "unused")
  hash _ := 0

def cat (args input : List String) (errorOnNonzero : Bool) : ProcessCommand where
  args := args.map (fun arg => { value := arg })
  cache := true
  exe := .binary { value := "cat" }
  errorOnNonzero := errorOnNonzero
  input := input
  shell := none

theorem cat_cached_transparent :
    ∃ entry : CachedOutput, entry.producer = cat [] ["a"] false ∧
      SameInvocation entry.producer (cat [] ["a"] true) ∧
      ((cat [] ["a"] true).execCaptureOutput catHost
          ([.exec (cat [] ["a"] false)].foldl (OutputCache.step catHost) (fun _ => none))).1 =
        (cat [] ["a"] true).internalExecCaptureOutput catHost := by
  refine ⟨⟨cat [] ["a"] false, { exit := .completed (some 0) }⟩, rfl, ?_⟩
  refine (cached_output_transparent_iff catHost [.exec (cat [] ["a"] false)] (cat [] ["a"] true)
    (fun _ _ h => by simp only [catHost, h.input]) ?_ rfl rfl _ rfl _ rfl).mpr
      ⟨⟨rfl, rfl, rfl, rfl, rfl⟩, fun _ => rfl⟩
  rintro f hf -
  rw [mem_singleton.mp hf]
  rfl

/-- The input of one command is taken for an argument of another one, and a failure that one puts up
with is not raised for another. -/
theorem cat_cached_for_other : ((cat ["a", "b"] [] true).execCaptureOutput catHost
        ([.exec (cat ["a"] ["b"] true)].foldl (OutputCache.step catHost) (fun _ => none))).1 =
        .ok { exit := .completed (some 0) } ∧
      (cat ["a", "b"] [] true).internalExecCaptureOutput catHost =
        .error (.exitNonZeroWithOutput "cat" { exit := .completed (some 1) }) ∧
      ((cat ["a"] [] true).execCaptureOutput catHost
        ([.exec (cat ["a"] [] false)].foldl (OutputCache.step catHost) (fun _ => none))).1 =
        .ok { exit := .completed (some 1) } ∧
      (cat ["a"] [] true).internalExecCaptureOutput catHost =
        .error (.exitNonZeroWithOutput "cat" { exit := .completed (some 1) }) ∧
      (cat ["a"] ["b"] true).hasherWrites = (cat ["a", "b"] [] true).hasherWrites :=
  ⟨rfl, rfl, rfl, rfl, rfl⟩

/-- A `\r` that ends no line comes before the line ends. -/
def redrawn : Bytes → Bool
  | [] => false
  | byte :: rest => byte ≠ 10 && (byte = 13 && rest.head? ≠ some 10 || redrawn rest)

/-- What is left of each line that the process drew again. -/
def kept : Bytes → Bytes
  | [] => []
  | byte :: rest => if redrawn (byte :: rest) then kept rest else byte :: kept rest

/-- The line endings in order, `true` for `\r\n`. -/
def lineEndings : Bytes → List Bool
  | [] => []
  | 13 :: 10 :: rest => true :: lineEndings rest
  | byte :: rest => if byte = 10 then false :: lineEndings rest else lineEndings rest

section

variable {b : UInt8} {l e : Bytes}

lemma redrawn_append (l rest : Bytes) : redrawn (l ++ 10 :: rest) = redrawn (l ++ [10]) := by
  induction l with
  | nil => simp [redrawn]
  | cons b l ih => simp [redrawn, ih, head?_append]

lemma kept_append (l rest : Bytes) : kept (l ++ 10 :: rest) = kept (l ++ [10]) ++ kept rest := by
  induction l with
  | nil => simp [kept, redrawn]
  | cons b l ih =>
    have hr : redrawn (b :: (l ++ 10 :: rest)) = redrawn (b :: (l ++ [10])) :=
      redrawn_append (b :: l) rest
    simp only [cons_append, kept, hr]
    split_ifs
    · exact ih
    · rw [ih, cons_append]

/-- Before an ending, the redraws of a line are its `\r`. -/
lemma redrawn_line (hl : 10 ∉ l) (he : redrawn e = false)
    (hc : l.getLast? = some 13 → e.head? ≠ some 10) : redrawn (l ++ e) = decide (13 ∈ l) := by
  induction l with
  | nil => exact he
  | cons b l ih =>
    obtain ⟨hb, hn⟩ := not_or.mp (mt mem_cons.mpr hl)
    have hh : b = 13 → (l ++ e).head? ≠ some 10 := by
      rintro rfl
      cases l with
      | nil => exact hc rfl
      | cons => exact fun h => hn (Option.some.inj h ▸ mem_cons_self)
    rw [cons_append, redrawn, ih hn (fun h => hc (by simp [getLast?_cons, h]))]
    by_cases hr : b = 13
    · rw [decide_eq_true (hh hr)]
      simp [hr]
    · simp [hr, Ne.symm hb, Ne.symm hr]

lemma lastFrame_cons (b : UInt8) (l : Bytes) :
    lastFrame (b :: l) = if 13 ∈ b :: l then lastFrame l else b :: lastFrame l := by
  have hm : rposition 13 l = none ↔ 13 ∉ l := by
    induction l with
    | nil => simp [rposition]
    | cons c l ih => cases h : rposition 13 l <;> simp_all [rposition, eq_comm]
  cases h : rposition 13 l with
  | none => by_cases hb : b = 13 <;> simp_all [lastFrame, rposition, eq_comm]
  | some i =>
    have : 13 ∈ l := by simpa [h] using hm
    simp [lastFrame, rposition, h, this]

lemma kept_line (hl : 10 ∉ l) (he : redrawn e = false) (hk : kept e = e)
    (hc : l.getLast? = some 13 → e.head? ≠ some 10) : kept (l ++ e) = lastFrame l ++ e := by
  induction l with
  | nil => exact hk
  | cons b l ih =>
    have hr : redrawn (b :: (l ++ e)) = decide (13 ∈ b :: l) := redrawn_line hl he hc
    have hi := ih (fun h => hl (mem_cons_of_mem _ h)) (fun h => hc (by simp [getLast?_cons, h]))
    simp only [cons_append, kept, hr, hi, lastFrame_cons, decide_eq_true_eq]
    split_ifs
    · rfl
    · rfl

lemma collapseLine_last (hl : 10 ∉ l) : collapseLine l = kept l := by
  have hk := kept_line (e := []) hl rfl rfl nofun
  rw [append_nil, append_nil] at hk
  rcases eq_nil_or_concat' l with rfl | ⟨front, b, rfl⟩
  · rfl
  · have hb : b ≠ 10 := fun hb => hl (by simp [hb])
    simp [collapseLine, hb, hk]

lemma collapseLine_ended (hl : 10 ∉ l) : collapseLine (l ++ [10]) = kept (l ++ [10]) := by
  rcases eq_nil_or_concat' l with rfl | ⟨front, b, rfl⟩
  · rfl
  · by_cases hb : b = 13
    · have hk := kept_line (e := [13, 10]) (fun h => hl (mem_append_left _ h)) rfl rfl nofun
      simp [collapseLine, hb, ← hk]
    · rw [kept_line hl rfl rfl (by simp [hb])]
      simp [collapseLine, hb]

lemma splitLines_last (hl : 10 ∉ l) (hne : l ≠ []) : splitLines l = [l] := by
  induction l with
  | nil => exact absurd rfl hne
  | cons b l ih =>
    obtain ⟨hb, hc⟩ := not_or.mp (mt mem_cons.mpr hl)
    rw [splitLines, if_neg (Ne.symm hb)]
    cases l with
    | nil => rfl
    | cons => rw [ih hc (cons_ne_nil _ _)]

lemma splitLines_ended (hl : 10 ∉ l) (rest : Bytes) :
    splitLines (l ++ 10 :: rest) = (l ++ [10]) :: splitLines rest := by
  induction l with
  | nil => simp [splitLines]
  | cons b l ih =>
    obtain ⟨hb, hc⟩ := not_or.mp (mt mem_cons.mpr hl)
    rw [cons_append, splitLines, if_neg (Ne.symm hb), ih hc]
    rfl

lemma flatMap_collapseLine (data : Bytes) : (splitLines data).flatMap collapseLine = kept data := by
  by_cases hm : 10 ∈ data
  · obtain ⟨l, rest, rfl, hl⟩ := eq_append_cons_of_mem hm
    rw [splitLines_ended hl, flatMap_cons, flatMap_collapseLine rest, collapseLine_ended hl,
      ← kept_append]
  · by_cases hne : data = []
    · rw [hne]
      rfl
    · rw [splitLines_last hm hne, flatMap_singleton, collapseLine_last hm]
termination_by data.length

lemma kept_eq_self (h : 13 ∉ l) : redrawn l = false ∧ kept l = l := by
  induction l with
  | nil => exact ⟨rfl, rfl⟩
  | cons b l ih =>
    obtain ⟨hb, hn⟩ := not_or.mp (mt mem_cons.mpr h)
    simp [kept, redrawn, ih hn, Ne.symm hb]

lemma collapseRedrawFrames_eq (data : Bytes) : collapseRedrawFrames data = kept data := by
  unfold collapseRedrawFrames
  split_ifs with h
  · exact flatMap_collapseLine data
  · exact (kept_eq_self h).2.symm

/-- A `\r` is kept with the line feed after it. -/
lemma head_kept (h : ¬redrawn (b :: l)) (hb : b = 13) : (kept l).head? = some 10 := by
  have hl : l.head? = some 10 := by
    by_contra hl
    simp [redrawn, hb, hl] at h
  obtain ⟨rest, rfl⟩ := head?_eq_some_iff.mp hl
  simp [kept, redrawn]

lemma not_redrawn_kept (l : Bytes) : redrawn (kept l) = false := by
  induction l with
  | nil => rfl
  | cons b l ih =>
    rw [kept]
    split_ifs with h
    · exact ih
    · simpa [redrawn, ih] using fun _ => head_kept h

lemma kept_kept (l : Bytes) : kept (kept l) = kept l := by
  induction l with
  | nil => rfl
  | cons b l ih =>
    have hn := not_redrawn_kept (b :: l)
    rw [kept] at hn ⊢
    split_ifs at hn ⊢
    · exact ih
    · rw [kept, hn, ih]
      rfl

lemma kept_return (l : Bytes) (i : Nat) (hi : (kept l)[i]? = some (13 : UInt8)) :
    (kept l)[i + 1]? = some (10 : UInt8) := by
  induction l generalizing i with
  | nil => simp [kept] at hi
  | cons b l ih =>
    rw [kept] at hi ⊢
    split_ifs at hi ⊢ with h
    · exact ih i hi
    · cases i with
      | zero => simpa [head?_eq_getElem?] using head_kept h (by simpa using hi)
      | succ i => exact ih i hi

lemma lineEndings_kept (l : Bytes) : lineEndings (kept l) = lineEndings l := by
  fun_induction lineEndings l with
  | case1 => rfl
  | case2 rest ih => simpa [kept, redrawn, lineEndings] using ih
  | case3 rest h ih => simpa [kept, redrawn, lineEndings] using ih
  | case4 b rest hne hb ih =>
    rw [kept]
    split_ifs with h
    · exact ih
    · have hr : b ≠ 13 := by
        rintro rfl
        cases rest with
        | nil => simp [redrawn] at h
        | cons c rest => simp_all [redrawn]
      simp [lineEndings, hr, hb, ih]

end

/-- Collapsed, a text keeps the bytes that no redraw follows on their line. -/
theorem collapse_redraw_frames_keeps_last (data rest : Bytes) :
    collapseRedrawFrames data = kept data ∧
      collapseRedrawFrames (collapseRedrawFrames data) = collapseRedrawFrames data ∧
      (∀ i, (collapseRedrawFrames data)[i]? = some (13 : UInt8) →
        (collapseRedrawFrames data)[i + 1]? = some (10 : UInt8)) ∧
      lineEndings (collapseRedrawFrames data) = lineEndings data ∧
      collapseRedrawFrames (data ++ 10 :: rest) =
        collapseRedrawFrames (data ++ [10]) ++ collapseRedrawFrames rest := by
  simp only [collapseRedrawFrames_eq]
  exact ⟨trivial, kept_kept data, kept_return data, lineEndings_kept data, kept_append data rest⟩

end Moon.Proofs
