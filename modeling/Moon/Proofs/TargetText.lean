import Moon.TargetText

/-!
# Targets and their directories

The accessors of a target slice its text at an index that is kept in a byte, and a parsed target
has to match a pattern that a new one does not have to match.
-/

namespace Moon.Proofs

open List TargetText Option

lemma utf8Len_append (b a : List Char) : utf8Len (b ++ a) = utf8Len b + utf8Len a := by
  simp [utf8Len]

lemma splitAtByte_append (b a : List Char) : splitAtByte (b ++ a) (utf8Len b) = some (b, a) := by
  induction b with
  | nil => simp [utf8Len, splitAtByte]
  | cons c b ih =>
    have hl : utf8Len (c :: b) = c.utf8Size + utf8Len b := rfl
    have hpos := c.utf8Size_pos
    rw [cons_append, splitAtByte, if_pos (by omega), hl, Nat.add_sub_cancel_left, ih]
    · rfl
    · omega

lemma utf8Len_of_splitAtByte {bytes : Nat} {text b a : List Char}
    (h : splitAtByte text bytes = some (b, a)) : utf8Len b = bytes := by
  fun_induction splitAtByte text bytes generalizing b with
  | case1 text =>
    cases h
    rfl
  | case2 => cases h
  | case3 c text bytes _ hle ih =>
    obtain ⟨parts, hp, ⟨⟩⟩ := map_eq_some_iff.mp h
    have hl := ih hp
    simp only [utf8Len, map_cons, sum_cons] at hl ⊢
    omega
  | case4 => cases h

section

variable {rs : IdRules} {p k : List Char} {t : TargetText}

lemma parseProject_cases {ki : ProjectKind} (h : parseProject rs p = some ki) :
    (∃ w ∈ projectWords, w.1 = p) ∨ ki = .id ∨
      ki = .tag ∧ ∃ tag, p = '#' :: tag ∧ tag.dropWhile (· == '#') = tag := by
  unfold parseProject at h
  split at h
  next _ _ w hw => exact .inl ⟨w, mem_of_find?_eq_some hw, by simpa using find?_some hw⟩
  next tag _ =>
    obtain ⟨hi, ⟨⟩⟩ := ite_none_right_eq_some.mp h
    refine .inr (.inr ⟨rfl, tag, rfl, ?_⟩)
    cases tag with
    | nil => rfl
    | cons c tag =>
      refine dropWhile_cons_of_neg fun hc => ?_
      rw [beq_iff_eq.mp hc, rs.no_hash] at hi
      cases hi
  next =>
    obtain ⟨-, ⟨⟩⟩ := ite_none_right_eq_some.mp h
    exact .inr (.inl rfl)

lemma new_eq_some (h : new rs p k = some t) :
    parseProject rs p = some t.project ∧
      parseTask rs k = some t.task ∧
      t.index = utf8Len p % 256 ∧ t.id = p ++ ':' :: k := by
  unfold new at h
  cases hp : parseProject rs p with
  | none => simp [hp] at h
  | some kind =>
    cases ht : parseTask rs k with
    | none => simp [hp, ht] at h
    | some kind' =>
      rw [hp, ht] at h
      cases h
      exact ⟨rfl, rfl, rfl, rfl⟩

lemma colon_not_mem {text : List Char} (h : text.all rs.isChar) : ':' ∉ text := by
  intro hm
  have hc := all_eq_true.mp h _ hm
  rw [rs.no_colon] at hc
  cases hc

lemma colon_not_mem_project (h : isProject rs p) : ':' ∉ p := by
  simp only [isProject, Bool.or_eq_true, Bool.and_eq_true, decide_eq_true_eq] at h
  rcases h with hwr | ⟨hh, ht⟩
  · revert p
    decide
  · cases p with
    | nil => exact not_mem_nil
    | cons c p =>
      rintro (_ | ⟨_, hm⟩)
      · cases hh
      · exact colon_not_mem ht hm

lemma colon_not_mem_task (h : isTask rs k) : ':' ∉ k := by
  simp only [isTask, Bool.or_eq_true, Bool.and_eq_true, decide_eq_true_eq] at h
  rcases h with ⟨-, ha⟩ | ⟨⟨hh, -⟩, ha⟩
  · exact colon_not_mem ha
  · cases k with
    | nil => cases hh
    | cons c k =>
      cases hh
      rintro (_ | ⟨_, hm⟩)
      exact colon_not_mem ha hm

lemma parse_eq_some_iff (h : new rs p k = some t) :
    parse rs t.id = some t ↔ isProject rs p ∧ isTask rs k := by
  rw [(new_eq_some h).2.2.2]
  have hs : ∀ {b : List Char} (a : List Char), ':' ∉ b →
      (b ++ ':' :: a).takeWhile (· != ':') = b ∧
        ((b ++ ':' :: a).dropWhile (· != ':')).tail = a := by
    intro b a hb
    have ha : ∀ c ∈ b, (c != ':') := fun c hc => by
      simpa using fun heq : c = ':' => hb (heq ▸ hc)
    rw [takeWhile_append_of_pos ha, dropWhile_append_of_pos ha]
    simp
  unfold parse
  rw [if_neg (show ¬ ':' ∉ p ++ ':' :: k by simp)]
  dsimp only
  by_cases hcl : ':' ∈ p
  · obtain ⟨b, a, rfl, hb⟩ := eq_append_cons_of_mem hcl
    rw [append_assoc, cons_append, (hs _ hb).1, (hs _ hb).2]
    have ht : isTask rs (a ++ ':' :: k) = false := by
      by_contra h
      exact colon_not_mem_task (by simpa using h) (mem_append_right _ mem_cons_self)
    simp only [ht, Bool.and_false, Bool.false_eq_true, if_false, reduceCtorEq, false_iff]
    exact fun hp => colon_not_mem_project hp.1 hcl
  · rw [(hs _ hcl).1, (hs _ hcl).2, h, ite_none_right_eq_some, Bool.and_eq_true, and_iff_left rfl]

end

lemma accessors_of_short {rs : IdRules} {p k : List Char} {t : TargetText}
    (h : new rs p k = some t) (hs : utf8Len p < 256) :
    t.getProjectScope = some (t.project, t.project.text p) ∧
      t.getTaskScope = some (taskScope k) := by
  obtain ⟨-, -, hi, hid⟩ := new_eq_some h
  rw [Nat.mod_eq_of_lt hs] at hi
  have hn : t.index + 1 = utf8Len (p ++ [':']) := by
    rw [hi, utf8Len_append]
    rfl
  rw [getProjectScope, getTaskScope, hn, hid, hi, splitAtByte_append,
    ← singleton_append, ← append_assoc, splitAtByte_append]
  exact ⟨rfl, rfl⟩

/-- The accessors give back the scopes that the target was made of, and its text can be parsed
again, iff the text of the project is shorter than 256 bytes and both texts match the pattern of
a target. -/
theorem target_text_faithful_iff (rules : IdRules) (project task : List Char)
    (target : TargetText) (h : TargetText.new rules project task = some target) :
    (target.getProjectScope = some (target.project, target.project.text project) ∧
        target.getTaskScope = some (taskScope task) ∧ target.task = (taskScope task).1 ∧
        TargetText.parse rules target.id = some target) ↔
      utf8Len project < 256 ∧ TargetText.isProject rules project = true ∧
        TargetText.isTask rules task = true := by
  rw [parse_eq_some_iff h]
  obtain ⟨hp, ht, hi, hid⟩ := new_eq_some h
  constructor
  · rintro ⟨hsc, -, -, hpt⟩
    refine ⟨?_, hpt⟩
    by_contra hln
    obtain ⟨⟨s, _⟩, hs, hpa⟩ := map_eq_some_iff.mp hsc
    have hl := utf8Len_of_splitAtByte hs
    have htx := (Prod.mk.inj hpa).2
    rw [hi] at hl
    obtain ⟨w, hw, rfl⟩ | hk | ⟨hk, tag, rfl, htg⟩ := parseProject_cases hp
    · have hwr : ∀ w ∈ projectWords, utf8Len w.1 < 256 := by decide
      exact hln (hwr w hw)
    · rw [hk] at htx
      rw [show s = project from htx] at hl
      omega
    · rw [hk] at htx
      obtain ⟨ha, hs⟩ := dropWhile_suffix (· == '#') (l := s)
      rw [show s.dropWhile (· == '#') = tag from htx.trans htg] at hs
      have hprt := utf8Len_append ha tag
      have hhs : utf8Len ('#' :: tag) = 1 + utf8Len tag := rfl
      rw [hs] at hprt
      omega
  · rintro ⟨hsh, hpt⟩
    obtain ⟨hpr, hts⟩ := accessors_of_short h hsh
    exact ⟨hpr, hts, (Option.some.inj (ite_none_right_eq_some.mp ht).2).symm, hpt⟩

/-- Ids of ASCII letters, digits and some symbols. -/
def asciiRules : IdRules where
  isId text := text ≠ [] && text.all (fun c => c.isAlphanum || c ∈ ['-', '_', '/', '.'])
  isChar c := c.isAlphanum || c ∈ ['-', '_', '/', '.']
  no_colon := rfl
  no_hash _ := rfl

/-- The index of the separator wraps around, so the project of the target is empty. -/
theorem long_project_lost :
    (TargetText.new asciiRules (replicate 256 'a') ['b']).bind TargetText.getProjectScope =
      some (.id, []) := by
  decide +kernel

theorem app_build_faithful :
    TargetText.parse asciiRules "app:build".toList = some ⟨"app:build".toList, .id, .id, 3⟩ :=
  ((target_text_faithful_iff asciiRules "app".toList "build".toList
    ⟨"app:build".toList, .id, .id, 3⟩ (by decide)).mpr (by decide)).2.2.2

/-- Without the characters that `encode_component` drops, turns into a dash or trims. -/
structure PlainText (text : List Char) : Prop where
  nonempty : text ≠ []
  chars : ∀ c ∈ text, c ∉ ['@', '*', '/', ':']
  first : text.head? ∉ [some '-', some '.']
  last : text.getLast? ∉ [some '-', some '.']

section

variable {text text' : List Char}

/-- The characters that `encode_component` keeps, before it trims them. -/
def encodeChars (text : List Char) : List Char :=
  text.filterMap (fun c =>
    if c = '@' ∨ c = '*' then none else if c = '/' ∨ c = ':' then some '-' else some c)

def isTrimmed (c : Char) : Bool := c ∈ ['-', '.']

lemma encodeComponent_trim (text : List Char) :
    encodeComponent text = ((encodeChars text).dropWhile isTrimmed).rdropWhile isTrimmed :=
  rfl

lemma PlainText.encodeComponent_eq (h : PlainText text) : encodeComponent text = text := by
  have hf : encodeChars text = text := by
    unfold encodeChars
    rw [filterMap_congr (g := some), filterMap_some]
    intro c hc
    have := h.chars c hc
    simp_all
  rw [encodeComponent_trim, hf, dropWhile_eq_self_iff.mpr, rdropWhile_eq_self_iff.mpr]
  · intro hne hm
    apply h.last
    simpa [getLast?_eq_some_getLast hne, isTrimmed] using hm
  · intro hl hm
    apply h.first
    simpa [head?_eq_getElem?, getElem?_eq_getElem hl, isTrimmed] using hm

lemma PlainText.tagged (h : PlainText text) : PlainText ("tag-".toList ++ text) where
  nonempty := by simp
  chars c hc := by
    rcases mem_append.mp hc with hc | hc
    · have hw : ∀ c ∈ "tag-".toList, c ∉ ['@', '*', '/', ':'] := by simp
      exact hw c hc
    · exact h.chars c hc
  first := (by decide : some 't' ∉ [some '-', some '.'])
  last := by
    rw [getLast?_append_of_ne_nil _ h.nonempty]
    exact h.last

lemma utf8Len_encodeComponent_le (text : List Char) :
    utf8Len (encodeComponent text) ≤ utf8Len text := by
  have hf (text : List Char) : utf8Len (encodeChars text) ≤ utf8Len text := by
    induction text with
    | nil => exact Nat.le_refl 0
    | cons c text ih =>
      have hc : ('-' : Char).utf8Size ≤ c.utf8Size := c.utf8Size_pos
      rw [encodeChars, filterMap_cons]
      simp only [utf8Len, encodeChars] at ih ⊢
      split_ifs <;> simp only [map_cons, sum_cons] <;> omega
  obtain ⟨start, hs⟩ := dropWhile_suffix isTrimmed (l := encodeChars text)
  obtain ⟨rest, hr⟩ := rdropWhile_prefix isTrimmed ((encodeChars text).dropWhile isTrimmed)
  have hsl := congrArg utf8Len hs
  have hrl := congrArg utf8Len hr
  rw [utf8Len_append] at hsl hrl
  have := hf text
  rw [encodeComponent_trim]
  omega

/-- What `encode_component` leaves of a text is plain. -/
lemma encodeComponent_plain (h : encodeComponent text ≠ []) :
    PlainText (encodeComponent text) where
  nonempty := h
  chars c hc := by
    have hm := (dropWhile_suffix _).mem ( rdropWhile_prefix _ _ |>.mem hc)
    obtain ⟨d, -, hd⟩ := mem_filterMap.mp hm
    split_ifs at hd with hs hs'
    · cases hd
      decide
    · cases hd
      simp_all
  first := by
    -- the trimmed text starts as the one that is trimmed at its start only
    obtain ⟨rest, hr⟩ := rdropWhile_prefix isTrimmed ((encodeChars text).dropWhile isTrimmed)
    rw [encodeComponent_trim] at h ⊢
    rw [← head?_append_of_ne_nil _ h, hr]
    have hh := head?_dropWhile_not isTrimmed (encodeChars text)
    cases hd : ((encodeChars text).dropWhile isTrimmed).head? with
    | none => simp
    | some c =>
      rw [hd] at hh
      simpa [isTrimmed] using hh
  last := by
    have hl : ¬ isTrimmed ((encodeComponent text).getLast h) := rdropWhile_last_not isTrimmed _ h
    rw [getLast?_eq_some_getLast h]
    simpa [isTrimmed] using hl

/-- An id as it is, or a tag behind its scope. -/
def scopeName (tag : Bool) (text : List Char) : List Char :=
  if tag then "tag-".toList ++ text else text

lemma scopeName_inj {tag tag' : Bool} (h : tag = false → ¬ "tag-".toList <+: text)
    (h' : tag' = false → ¬ "tag-".toList <+: text')
    (heq : scopeName tag text = scopeName tag' text') : tag = tag' ∧ text = text' := by
  cases tag <;> cases tag'
  · exact ⟨rfl, heq⟩
  · exact absurd ⟨text', heq.symm⟩ (h rfl)
  · exact absurd ⟨text, heq⟩ (h' rfl)
  · exact ⟨rfl, append_cancel_left heq⟩

lemma stateDir_plain {pk : ProjectKind} {tk : TaskKind} (hk : pk = .id ∨ pk = .tag)
    (h : PlainText text) (h' : PlainText text') :
    stateDir (pk, text) (tk, text') =
      [scopeName (pk = .tag) text, scopeName (tk = .tag) text'] := by
  have hf {d name : List Char} (hd : d ≠ []) (hn : name ≠ []) :
      [d, name].filter (· ≠ []) = [d, name] := by
    simp [hd, hn]
  have hdir := h.encodeComponent_eq
  have hid := h'.encodeComponent_eq
  have htag := h'.tagged.encodeComponent_eq
  rcases hk with rfl | rfl <;> cases tk
  · simp only [stateDir, hdir, hid]
    exact hf h.nonempty h'.nonempty
  · simp only [stateDir, hdir, htag]
    exact hf h.nonempty (cons_ne_nil _ _)
  · simp only [stateDir, hdir, hid]
    exact hf (cons_ne_nil _ _) h'.nonempty
  · simp only [stateDir, hdir, htag]
    exact hf (cons_ne_nil _ _) (cons_ne_nil _ _)

end

/-- A target of ids or tags whose directory shows both of them. -/
structure PlainTarget (project task : List Char) (target : TargetText) : Prop where
  kind : target.project = .id ∨ target.project = .tag
  short : utf8Len project < 256
  projectText : PlainText (target.project.text project)
  taskText : PlainText (taskScope task).2
  projectId : target.project = .id → ¬ "tag-".toList <+: target.project.text project
  taskId : (taskScope task).1 = .id → ¬ "tag-".toList <+: (taskScope task).2

section

variable {rs : IdRules} {p k k' : List Char} {t : TargetText}

lemma taskScope_inj (h : taskScope k = taskScope k') : k = k' := by
  have htag (k : List Char) : k = (if (taskScope k).1 = .tag then ['#'] else []) ++
      (taskScope k).2 := by
    unfold taskScope
    split <;> rfl
  rw [htag k, htag k', h]

/-- A project of an id or a tag is what the accessors make of it, with the sign of a tag. -/
lemma project_eq (h : new rs p k = some t) (hs : t.project = .id ∨ t.project = .tag) :
    p = (if t.project = .tag then ['#'] else []) ++ t.project.text p := by
  obtain ⟨hp, -⟩ := new_eq_some h
  obtain ⟨w, hw, rfl⟩ | hk | ⟨hk, tag, rfl, ht⟩ := parseProject_cases hp
  · have hkind : parseProject rs w.1 = some w.2 ∧ w.2 ≠ .id ∧ w.2 ≠ .tag := by
      unfold projectWords at hw
      simp only [mem_cons, not_mem_nil] at hw
      rcases hw with rfl | rfl | rfl | rfl | rfl | rfl | rfl | rfl | rfl | ⟨⟨⟩⟩ <;>
        exact ⟨rfl, by decide, by decide⟩
    rw [hkind.1] at hp
    rw [← Option.some.inj hp] at hs
    exact absurd hs (not_or.mpr hkind.2)
  · rw [hk]
    rfl
  · rw [hk, if_pos rfl]
    exact congrArg (cons '#') ht.symm

end

end Moon.Proofs
