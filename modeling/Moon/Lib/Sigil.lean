import Mathlib.Order.Lattice.Nat

/-!
# Tokens that start with a sigil

A token is a sigil and what a matcher accepts behind it, up to the next sigil at most. What is put
in for a token may complete tokens with the text around it, so a sigil counts for the heaviest
token that it can become.
-/

namespace Moon.Lib

open List

variable {α β : Type} [DecidableEq α]

section Tokens

variable (sigil : α) (matcher : List α → Option (β × List α))

/-- The first token of a text, with what is before and behind it. -/
def firstToken : List α → Option (List α × β × List α)
  | [] => none
  | c :: rest =>
    match if c = sigil then matcher rest else none with
    | some (token, after) => some ([], token, after)
    | none => (firstToken rest).map (fun found => (c :: found.1, found.2.1, found.2.2))

omit [DecidableEq α] in
/-- Replaces all occurrences of a text. What is left of the one that was found last is skipped. -/
def replaceAllFrom [BEq α] (token value : List α) : Nat → List α → List α
  | _, [] => []
  | skip + 1, _ :: rest => replaceAllFrom token value skip rest
  | 0, c :: rest =>
    if token.isPrefixOf (c :: rest) then
      value ++ replaceAllFrom token value (token.length - 1) rest
    else c :: replaceAllFrom token value 0 rest

def replaceAll (token value text : List α) : List α := replaceAllFrom token value 0 text

/-- What stands before the next sigil. -/
def runOf : List α → List α
  | [] => []
  | c :: rest => if c = sigil then [] else c :: runOf rest

/-- The token before this run can be this one, depending on what comes behind. -/
def CanBe (run : List α) (token : β) : Prop :=
  ∃ rest after, matcher (run ++ rest) = some (token, after)

/-- The token can arise from a sigil of the text, wherever the text is put in. -/
def Arises : List α → β → Prop
  | [], _ => False
  | c :: rest, token => (c = sigil ∧ CanBe matcher (runOf sigil rest) token) ∨ Arises rest token

variable (weight : β → Nat)

/-- The weight of the heaviest token before this run. -/
noncomputable def potential (run : List α) : Nat :=
  sSup (weight '' {token | CanBe matcher run token})

/-- The weight of all tokens that can arise. -/
noncomputable def load : List α → Nat
  | [] => 0
  | c :: rest => (if c = sigil then potential matcher weight (runOf sigil rest) else 0) + load rest

end Tokens

variable {sigil : α} {matcher : List α → Option (β × List α)} {weight : β → Nat}

/-- A token is taken from behind its sigil, and has none itself. -/
structure MatcherOk (sigil : α) (matcher : List α → Option (β × List α)) : Prop where
  taken : ∀ text token after, matcher text = some (token, after) →
    ∃ taken, text = taken ++ after ∧ sigil ∉ taken

variable {text before : List α}

theorem eq_of_firstToken {after : List α} {token : β}
    (h : firstToken sigil matcher text = some (before, token, after)) :
    ∃ behind, text = before ++ sigil :: behind ∧ matcher behind = some (token, after) := by
  induction text generalizing before with
  | nil => cases h
  | cons c rest ih =>
    unfold firstToken at h
    split at h
    next token' after' hm =>
      cases h
      split at hm
      next hc => exact ⟨rest, by rw [hc]; rfl, hm⟩
      next => cases hm
    next =>
      obtain ⟨found, hf, heq⟩ := Option.map_eq_some_iff.mp h
      cases heq
      obtain ⟨behind, hr, hm⟩ := ih hf
      exact ⟨behind, by rw [hr]; rfl, hm⟩

omit [DecidableEq α] in
theorem CanBe.of_prefix {run run' : List α} {token : β} (h : CanBe matcher run' token)
    (hs : run <+: run') : CanBe matcher run token := by
  obtain ⟨more, rfl⟩ := hs
  obtain ⟨rest, after, hm⟩ := h
  exact ⟨more ++ rest, after, by rw [← append_assoc]; exact hm⟩

variable (sigil) in
theorem runOf_prefix_append (text more : List α) :
    runOf sigil text <+: runOf sigil (text ++ more) := by
  induction text with
  | nil => exact nil_prefix
  | cons c rest ih =>
    rw [cons_append, runOf, runOf]
    split
    · exact nil_prefix
    · exact cons_prefix_cons.mpr ⟨rfl, ih⟩

theorem runOf_append_sigil (text rest : List α) :
    runOf sigil (text ++ sigil :: rest) = runOf sigil text := by
  induction text with
  | nil => simp [runOf]
  | cons c text ih => rw [cons_append, runOf, runOf, ih]

variable (sigil) in
theorem exists_eq_runOf_append (text : List α) : ∃ rest, text = runOf sigil text ++ rest := by
  induction text with
  | nil => exact ⟨[], rfl⟩
  | cons c text ih =>
    rw [runOf]
    split
    · exact ⟨c :: text, rfl⟩
    · obtain ⟨rest, hr⟩ := ih
      exact ⟨rest, by rw [cons_append, ← hr]⟩

omit [DecidableEq α] in
theorem potential_le {run : List α} {bound : Nat}
    (h : ∀ token, CanBe matcher run token → weight token ≤ bound) :
    potential matcher weight run ≤ bound := by
  refine csSup_le' ?_
  rintro _ ⟨token, ht, rfl⟩
  exact h token ht

theorem load_cons (c : α) (rest : List α) :
    load sigil matcher weight (c :: rest) =
      (if c = sigil then potential matcher weight (runOf sigil rest) else 0) +
        load sigil matcher weight rest := by
  rw [load]

theorem load_cons_of_ne {c : α} (h : c ≠ sigil) (rest : List α) :
    load sigil matcher weight (c :: rest) = load sigil matcher weight rest := by
  rw [load_cons, if_neg h, Nat.zero_add]

theorem load_append_sigil (text rest : List α) :
    load sigil matcher weight (text ++ sigil :: rest) =
      load sigil matcher weight text + load sigil matcher weight (sigil :: rest) := by
  induction text with
  | nil => simp [load]
  | cons c text ih =>
    rw [cons_append, load_cons, load_cons, runOf_append_sigil, ih, Nat.add_assoc]

theorem load_append_of_notMem {taken : List α} (h : sigil ∉ taken) (after : List α) :
    load sigil matcher weight (taken ++ after) = load sigil matcher weight after := by
  induction taken with
  | nil => rfl
  | cons c taken ih =>
    obtain ⟨hc, ht⟩ := ne_and_not_mem_of_not_mem_cons h
    rw [cons_append, load_cons_of_ne (Ne.symm hc), ih ht]

/-- As many sigils as there are, each with what can arise from it. -/
theorem load_mul_le {base bound : Nat} (hb : 0 < base)
    (h : ∀ token, Arises sigil matcher text token → weight token * base ≤ bound) :
    load sigil matcher weight text * base ≤ text.count sigil * bound := by
  induction text with
  | nil => simp [load]
  | cons c rest ih =>
    have hr := ih (fun token ht => h token (.inr ht))
    by_cases hc : c = sigil
    · have hp : potential matcher weight (runOf sigil rest) ≤ bound / base :=
        potential_le (fun token ht =>
          (Nat.le_div_iff_mul_le hb).mpr (h token (.inl ⟨hc, ht⟩)))
      have hmul := (Nat.le_div_iff_mul_le hb).mp hp
      rw [load_cons, if_pos hc, hc, count_cons_self, Nat.add_mul, Nat.add_mul]
      omega
    · rw [load_cons_of_ne hc, count_cons_of_ne hc]
      exact hr

theorem not_arises_of_notMem (h : sigil ∉ text) (token : β) :
    ¬ Arises sigil matcher text token := by
  induction text with
  | nil => exact id
  | cons c rest ih =>
    obtain ⟨hc, hr⟩ := ne_and_not_mem_of_not_mem_cons h
    rintro (⟨hs, -⟩ | ht)
    · exact hc hs.symm
    · exact ih hr ht

section Arising

variable {token : β}

/-- What is put behind a text leaves less that can arise from it. -/
theorem arises_append {more : List α} (h : Arises sigil matcher (text ++ more) token) :
    Arises sigil matcher text token ∨ Arises sigil matcher more token := by
  induction text with
  | nil => exact .inr h
  | cons c rest ih =>
    rcases h with ⟨hc, hb⟩ | h
    · exact .inl (.inl ⟨hc, hb.of_prefix (runOf_prefix_append sigil rest more)⟩)
    · exact (ih h).imp_left .inr

theorem Arises.of_suffix (h : Arises sigil matcher text token) (start : List α) :
    Arises sigil matcher (start ++ text) token := by
  induction start with
  | nil => exact h
  | cons c start ih => exact .inr ih

theorem Arises.before_sigil (h : Arises sigil matcher text token) (rest : List α) :
    Arises sigil matcher (text ++ sigil :: rest) token := by
  induction text with
  | nil => exact h.elim
  | cons c text ih =>
    rcases h with ⟨hc, hb⟩ | h
    · exact .inl ⟨hc, (runOf_append_sigil text rest).symm ▸ hb⟩
    · exact .inr (ih h)

theorem arises_of_matcher {behind after : List α} (h : matcher behind = some (token, after))
    (start : List α) : Arises sigil matcher (start ++ sigil :: behind) token := by
  obtain ⟨rest, hr⟩ := exists_eq_runOf_append sigil behind
  have hs : Arises sigil matcher (sigil :: behind) token := .inl ⟨rfl, rest, after, hr ▸ h⟩
  exact hs.of_suffix start

variable (sigil matcher) in
/-- The token can arise from the text, or from what of it stands before a mark. -/
def ArisesCut (mark : α) (text : List α) (token : β) : Prop :=
  ∃ start, (start = text ∨ start ++ [mark] <+: text) ∧ Arises sigil matcher start token

variable {mark : α}

theorem arisesCut_append {more : List α} (h : ArisesCut sigil matcher mark (text ++ more) token) :
    ArisesCut sigil matcher mark text token ∨ ArisesCut sigil matcher mark more token := by
  obtain ⟨start, rfl | ⟨rest, hr⟩, ha⟩ := h
  · exact (arises_append ha).imp (fun ha => ⟨text, .inl rfl, ha⟩) (fun ha => ⟨more, .inl rfl, ha⟩)
  rw [append_assoc, append_eq_append_iff] at hr
  obtain ⟨between, rfl, hb⟩ | ⟨between, rfl, hb⟩ := hr
  · cases between with
    | nil =>
      rw [append_nil]
      exact .inl ⟨start, .inl rfl, ha⟩
    | cons c between =>
      obtain ⟨rfl, -⟩ := cons_eq_cons.mp hb
      exact .inl ⟨start, .inr ⟨between, by simp⟩, ha⟩
  · refine (arises_append ha).imp (fun ha => ⟨text, .inl rfl, ha⟩) (fun ha => ?_)
    exact ⟨between, .inr ⟨rest, by rw [hb, append_assoc]⟩, ha⟩

theorem ArisesCut.before_mark (h : ArisesCut sigil matcher mark text token) (rest : List α) :
    ArisesCut sigil matcher mark (text ++ mark :: rest) token := by
  obtain ⟨start, rfl | ⟨more, rfl⟩, ha⟩ := h
  · exact ⟨start, .inr ⟨rest, by simp⟩, ha⟩
  · exact ⟨start, .inr ⟨more ++ mark :: rest, by simp⟩, ha⟩

theorem ArisesCut.of_suffix (h : ArisesCut sigil matcher mark text token) (start : List α) :
    ArisesCut sigil matcher mark (start ++ text) token := by
  obtain ⟨cut, rfl | ⟨more, rfl⟩, ha⟩ := h
  · exact ⟨start ++ cut, .inl rfl, ha.of_suffix start⟩
  · exact ⟨start ++ cut, .inr ⟨more, by simp⟩, ha.of_suffix start⟩

theorem not_arisesCut_of_notMem (h : sigil ∉ text) :
    ¬ ArisesCut sigil matcher mark text token := by
  rintro ⟨start, hs, ha⟩
  refine not_arises_of_notMem (fun hm => h ?_) token ha
  rcases hs with rfl | hs
  · exact hm
  · exact hs.subset (mem_append_left _ hm)

end Arising

omit [DecidableEq α] in
theorem intercalate_induct {P : List α → Prop} {sep : List α} {texts : List (List α)}
    (happend : ∀ a b, P a → P b → P (a ++ b)) (hnil : P []) (hsep : P sep)
    (h : ∀ text ∈ texts, P text) : P (sep.intercalate texts) := by
  induction texts with
  | nil => exact hnil
  | cons text texts ih =>
    obtain ⟨ht, hr⟩ := forall_mem_cons.mp h
    cases texts with
    | nil => rwa [intercalate_singleton]
    | cons next rest =>
      rw [intercalate_cons_cons]
      exact happend _ _ (happend _ _ ht hsep) (ih hr)

theorem load_eq_zero (h : ∀ token, ¬ Arises sigil matcher text token) :
    load sigil matcher weight text = 0 := by
  have hmul : load sigil matcher weight text * 1 ≤ text.count sigil * 0 :=
    load_mul_le Nat.zero_lt_one (fun token ht => absurd ht (h token))
  omega

/-- Tokens of lower rank weigh less, as many as there may be. -/
theorem load_lt_of_rank {rank : β → Nat} {base r : Nat} (hc : text.count sigil < base)
    (h : ∀ token, Arises sigil matcher text token → rank token < r) :
    load sigil matcher (fun token => base ^ rank token) text < base ^ r := by
  have hb : 0 < base := by omega
  have hm : load sigil matcher (fun token => base ^ rank token) text * base ≤
      text.count sigil * base ^ r := by
    refine load_mul_le hb (fun token ht => ?_)
    rw [← Nat.pow_succ]
    exact Nat.pow_le_pow_right hb (h token ht)
  have hl : text.count sigil * base ^ r < base ^ r * base := by
    rw [Nat.mul_comm]
    exact Nat.mul_lt_mul_of_pos_left hc (Nat.pow_pos hb)
  exact Nat.lt_of_mul_lt_mul_right (Nat.lt_of_le_of_lt hm hl)

section Bounded

variable (hweight : BddAbove (Set.range weight))

include hweight

omit [DecidableEq α] in
theorem le_potential {run : List α} {token : β} (h : CanBe matcher run token) :
    weight token ≤ potential matcher weight run :=
  le_csSup (hweight.mono (Set.image_subset_range _ _)) ⟨token, h, rfl⟩

variable (matcher) in
omit [DecidableEq α] in
/-- The more is known of what comes behind a sigil, the less it can become. -/
theorem potential_anti {run run' : List α} (h : run <+: run') :
    potential matcher weight run' ≤ potential matcher weight run :=
  potential_le (fun _ ht => le_potential hweight (ht.of_prefix h))

variable (matcher) in
theorem load_cons_le {rest rest' : List α} (hr : runOf sigil rest <+: runOf sigil rest') (c : α) :
    load sigil matcher weight (c :: rest') + load sigil matcher weight rest ≤
      load sigil matcher weight (c :: rest) + load sigil matcher weight rest' := by
  have han := potential_anti matcher hweight hr
  rw [load_cons, load_cons]
  by_cases hc : c = sigil
  · rw [if_pos hc, if_pos hc]
    omega
  · rw [if_neg hc, if_neg hc]
    omega

variable (sigil matcher) in
theorem load_append_le (text more : List α) :
    load sigil matcher weight (text ++ more) ≤
      load sigil matcher weight text + load sigil matcher weight more := by
  induction text with
  | nil => simp [load]
  | cons c rest ih =>
    have hcn := load_cons_le matcher hweight (runOf_prefix_append sigil rest more) c
    rw [cons_append]
    omega

end Bounded

section Replace

variable (hmatcher : MatcherOk sigil matcher) (hweight : BddAbove (Set.range weight))
  {behind after value : List α} {token : β}

include hmatcher hweight in
theorem load_token (h : matcher behind = some (token, after)) :
    load sigil matcher weight after + weight token ≤
      load sigil matcher weight (sigil :: behind) := by
  have htok : weight token ≤ potential matcher weight (runOf sigil behind) := by
    obtain ⟨rest, hr⟩ := exists_eq_runOf_append sigil behind
    exact le_potential hweight ⟨rest, after, by rw [← hr]; exact h⟩
  obtain ⟨taken, rfl, hn⟩ := hmatcher.taken behind token after h
  rw [load_cons, if_pos rfl, load_append_of_notMem hn]
  omega

include hmatcher hweight in
/-- Replacing the first token by a text that is lighter. -/
theorem load_replace_lt (h : firstToken sigil matcher text = some (before, token, after))
    (hval : load sigil matcher weight value < weight token) :
    load sigil matcher weight (before ++ value ++ after) < load sigil matcher weight text := by
  obtain ⟨behind, rfl, hm⟩ := eq_of_firstToken h
  have haft := load_append_le sigil matcher hweight (before ++ value) after
  have hbef := load_append_le sigil matcher hweight before value
  have htok := load_token hmatcher hweight hm
  rw [load_append_sigil]
  omega

theorem replaceAllFrom_eq (token value text : List α) (skip : Nat) :
    replaceAllFrom token value skip text = replaceAll token value (text.drop skip) := by
  unfold replaceAll
  induction text generalizing skip with
  | nil =>
    rw [drop_nil]
    cases skip <;> rfl
  | cons c text ih =>
    cases skip with
    | zero => rfl
    | succ skip => exact ih skip

theorem replaceAll_cons_of_not_starts {token : List α} {c : α} (h : ¬ token <+: c :: text)
    (value : List α) : replaceAll token value (c :: text) = c :: replaceAll token value text := by
  have hf : token.isPrefixOf (c :: text) = false :=
    Bool.eq_false_iff.mpr (fun ht => h ( isPrefixOf_iff_prefix.mp ht))
  simp only [replaceAll, replaceAllFrom, hf, Bool.false_eq_true, if_false]

theorem replaceAll_append {c : α} (token value text : List α) :
    replaceAll (c :: token) value (c :: token ++ text) =
      value ++ replaceAll (c :: token) value text := by
  have ht : (c :: token).isPrefixOf (c :: (token ++ text)) = true :=
    isPrefixOf_iff_prefix.mpr (prefix_append (c :: token) text)
  rw [replaceAll, cons_append, replaceAllFrom, if_pos ht, replaceAllFrom_eq]
  simp

variable {taken : List α}

/-- Tokens start with a sigil, so the text before the next one stays. -/
theorem runOf_prefix_replaceAll (value text : List α) :
    runOf sigil text <+: runOf sigil (replaceAll (sigil :: taken) value text) := by
  induction text with
  | nil => exact nil_prefix
  | cons c text ih =>
    rw [runOf]
    split
    next => exact nil_prefix
    next hc =>
      have hn : ¬ (sigil :: taken) <+: c :: text := by
        intro hs
        exact hc (cons_prefix_cons.mp hs).1.symm
      rw [replaceAll_cons_of_not_starts hn, runOf, if_neg hc]
      exact cons_prefix_cons.mpr ⟨rfl, ih⟩

/-- A text is replaced from one occurrence to the next. -/
theorem replaceAll_cases (token text : List α) (c : α) :
    (∃ rest, text = c :: token ++ rest) ∨ text = [] ∨
      ∃ d rest, text = d :: rest ∧ ¬ c :: token <+: d :: rest := by
  cases text with
  | nil => exact .inr (.inl rfl)
  | cons d rest =>
    by_cases hs : c :: token <+: d :: rest
    · obtain ⟨more, hm⟩ := hs
      exact .inl ⟨more, hm.symm⟩
    · exact .inr (.inr ⟨d, rest, rfl, hs⟩)

variable (sigil taken) in
/-- A text has an occurrence, or it stays as it is. -/
theorem replaceAll_split (value text : List α) :
    replaceAll (sigil :: taken) value text = text ∨
      ∃ before rest, text = before ++ sigil :: (taken ++ rest) ∧
        replaceAll (sigil :: taken) value text =
          before ++ (value ++ replaceAll (sigil :: taken) value rest) := by
  induction text with
  | nil => exact .inl rfl
  | cons c text ih =>
    obtain ⟨rest, hr⟩ | hn | ⟨d, rest, hd, hn⟩ := replaceAll_cases taken (c :: text) sigil
    · refine .inr ⟨[], rest, hr, ?_⟩
      rw [hr, replaceAll_append]
      rfl
    · cases hn
    · obtain ⟨rfl, rfl⟩ := cons_eq_cons.mp hd
      rw [replaceAll_cons_of_not_starts hn]
      rcases ih with hs | ⟨before, rest, rfl, hs⟩
      · exact .inl (congrArg _ hs)
      · exact .inr ⟨c :: before, rest, rfl, congrArg _ hs⟩

/-- What holds of the parts of a text between the occurrences, and of what is put in. -/
theorem replaceAll_induct {P : List α → Prop} (happend : ∀ a b, P a → P b → P (a ++ b))
    (hbefore : ∀ a rest, P (a ++ sigil :: rest) → P a) (hsuffix : ∀ a b, P (a ++ b) → P b)
    (hvalue : P value) (h : P text) : P (replaceAll (sigil :: taken) value text) := by
  induction hl : text.length using Nat.strongRecOn generalizing text with
  | _ length ih =>
    rcases replaceAll_split sigil taken value text with hs | hs
    · rwa [hs]
    · obtain ⟨before, rest, rfl, hs⟩ := hs
      have hr : P rest := hsuffix (before ++ sigil :: taken) rest (by simpa using h)
      have hrest := ih rest.length (by rw [← hl]; simp; omega) hr rfl
      rw [hs]
      exact happend _ _ (hbefore before _ h) (happend _ _ hvalue hrest)

include hweight in
theorem load_replaceAll_le (hval : load sigil matcher weight value = 0)
    (hn : sigil ∉ taken) (text : List α) :
    load sigil matcher weight (replaceAll (sigil :: taken) value text) ≤
      load sigil matcher weight text := by
  induction hl : text.length using Nat.strongRecOn generalizing text with
  | _ length ih =>
    obtain ⟨rest, rfl⟩ | rfl | ⟨c, rest, rfl, hnt⟩ := replaceAll_cases taken text sigil
    · have hrs := ih rest.length (by rw [← hl, length_append, length_cons]; omega) rest rfl
      have hapn := load_append_le sigil matcher hweight value
        (replaceAll (sigil :: taken) value rest)
      have htok : load sigil matcher weight rest ≤
          load sigil matcher weight (sigil :: (taken ++ rest)) := by
        rw [load_cons, load_append_of_notMem hn]
        omega
      rw [replaceAll_append, cons_append]
      omega
    · exact Nat.le_refl _
    · have hrs := ih rest.length (by rw [← hl]; simp) rest rfl
      have hr : runOf sigil rest <+: runOf sigil (replaceAll (sigil :: taken) value rest) :=
        runOf_prefix_replaceAll value rest
      have hcn := load_cons_le matcher hweight hr c
      rw [replaceAll_cons_of_not_starts hnt]
      omega

/-- No occurrence goes beyond the next sigil. -/
theorem replaceAll_append_sigil (hn : sigil ∉ taken) (text rest : List α) :
    replaceAll (sigil :: taken) value (text ++ sigil :: rest) =
      replaceAll (sigil :: taken) value text ++
        replaceAll (sigil :: taken) value (sigil :: rest) := by
  induction hl : text.length using Nat.strongRecOn generalizing text with
  | _ length ih =>
    obtain ⟨more, rfl⟩ | rfl | ⟨c, more, rfl, hnt⟩ := replaceAll_cases taken text sigil
    · have hm := ih more.length (by rw [← hl, length_append, length_cons]; omega) more rfl
      rw [replaceAll_append, append_assoc, append_assoc, replaceAll_append, hm]
    · rfl
    · have hm := ih more.length (by rw [← hl]; simp) more rfl
      have hs : ¬ sigil :: taken <+: c :: (more ++ sigil :: rest) := by
        rintro ⟨after, ha⟩
        obtain ⟨rfl, ht⟩ := cons_eq_cons.mp ha
        obtain ⟨last, rfl, -⟩ | ⟨last, rfl, hls⟩ := append_eq_append_iff.mp ht
        · exact hnt ⟨last, rfl⟩
        · cases last with
          | nil => exact hnt ⟨[], by simp⟩
          | cons d last =>
            have hd : sigil = d := (cons_eq_cons.mp hls).1
            exact hn (by simp [hd])
      rw [cons_append, replaceAll_cons_of_not_starts hs, hm,
        replaceAll_cons_of_not_starts hnt, cons_append]

include hmatcher hweight in
/-- Replacing all occurrences of a token by a text from which none can arise. -/
theorem load_replaceAll_lt (hm : matcher (taken ++ after) = some (token, after))
    (hn : sigil ∉ taken) (hv : load sigil matcher weight value = 0) (htok : 0 < weight token) :
    load sigil matcher weight (replaceAll (sigil :: taken) value
        (before ++ sigil :: (taken ++ after))) <
      load sigil matcher weight (before ++ sigil :: (taken ++ after)) := by
  have hbef := load_replaceAll_le hweight hv hn before
  have haft := load_replaceAll_le hweight hv hn after
  have hlf := load_append_le sigil matcher hweight (replaceAll (sigil :: taken) value before)
    (value ++ replaceAll (sigil :: taken) value after)
  have hrgh := load_append_le sigil matcher hweight value (replaceAll (sigil :: taken) value after)
  have hsgl := load_token hmatcher hweight hm
  rw [replaceAll_append_sigil hn, ← cons_append, replaceAll_append, cons_append, load_append_sigil]
  omega

end Replace

end Moon.Lib
