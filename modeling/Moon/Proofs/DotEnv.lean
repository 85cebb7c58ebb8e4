import Moon.DotEnv
import Moon.Lib.Except

/-!
# What env files define

A reference is found where the text has it, a comment is cut off where the quotes of the line
allow it, and a loader does not read the variables that it was given.
-/

namespace Moon.Proofs

open Moon.Lib List EnvSubstitutor CharClasses

section

variable {pattern : Text → Option (Reference × Nat)} {replace : Reference → Text}

lemma replaceMatches_covered (co text : Text) :
    replaceMatches pattern replace co.length (co ++ text) =
      replaceMatches pattern replace 0 text := by
  induction co with
  | nil => rfl
  | cons c co ih => exact ih

/-- No match starts in a text that is followed by another one. -/
def Inert (pattern : Text → Option (Reference × Nat)) (behind : Text) : Text → Prop
  | [] => True
  | c :: text => (c = '$' → pattern (text ++ behind) = none) ∧ Inert pattern behind text

instance decidableInert (pattern : Text → Option (Reference × Nat)) (behind : Text) :
    ∀ text, Decidable (Inert pattern behind text)
  | [] => isTrue trivial
  | c :: text =>
    have := decidableInert pattern behind text
    inferInstanceAs (Decidable ((c = '$' → pattern (text ++ behind) = none) ∧
      Inert pattern behind text))

lemma inert_of_not_mem {pl behind : Text} (h : '$' ∉ pl) : Inert pattern behind pl := by
  induction pl with
  | nil => trivial
  | cons c pl ih =>
    rw [mem_cons, not_or] at h
    exact ⟨fun hc => absurd hc.symm h.1, ih h.2⟩

lemma replaceMatches_inert {pl text : Text} (h : Inert pattern text pl) :
    replaceMatches pattern replace 0 (pl ++ text) =
      pl ++ replaceMatches pattern replace 0 text := by
  induction pl with
  | nil => rfl
  | cons c pl ih =>
    have hn : (if c = '$' then pattern (pl ++ text) else none) = none := by
      split_ifs with hc
      · exact h.1 hc
      · rfl
    rw [cons_append, replaceMatches, hn, ih h.2]
    rfl

lemma replaceMatches_found {b : Text} {r : Reference} (text : Text)
    (h : pattern (b ++ text) = some (r, b.length)) :
    replaceMatches pattern replace 0 ('$' :: (b ++ text)) =
      replace r ++ replaceMatches pattern replace 0 text := by
  simp [replaceMatches, h, replaceMatches_covered]

/-- A reference without brackets, behind its dollar sign. -/
def plainText (reference : Reference) : Text := reference.namespacing ++ reference.name

def bracedText (reference : Reference) : Text :=
  '{' :: (plainText reference ++ reference.flag ++ reference.fallback ++ ['}'])

/-- A part of a value: a character, `$NAME` or `${NAME}`. -/
inductive Piece
  | char (c : Char)
  | plain (reference : Reference)
  | braced (reference : Reference)

def Piece.text : Piece → Text
  | .char c => [c]
  | .plain r => '$' :: plainText r
  | .braced r => '$' :: bracedText r

variable (s : EnvSubstitutor) (p : Option Text)

def Piece.filled : Piece → Text
  | .char c => [c]
  | .plain r | .braced r => s.expand p r

def Piece.half : Piece → Text
  | .char c => [c]
  | .plain r => s.expand p r
  | .braced r => '$' :: bracedText r

/-- The pieces are the references of their text and the rest of it, and no unbracketed reference
stands in a bracketed one. -/
def Divided : List Piece → Prop
  | [] => True
  | .char c :: ps =>
    (c = '$' → matchPlain (ps.flatMap Piece.text) = none ∧
      matchBrackets (ps.flatMap Piece.text) = none) ∧ Divided ps
  | .plain r :: ps =>
    matchPlain (plainText r ++ ps.flatMap Piece.text) = some (r, (plainText r).length) ∧ Divided ps
  | .braced r :: ps =>
    (∀ text, matchBrackets (bracedText r ++ text) = some (r, (bracedText r).length)) ∧
      Inert matchPlain (ps.flatMap Piece.text) (bracedText r) ∧ Divided ps

/-- The values of the unbracketed references make no bracketed one, neither alone nor with the
text around them. -/
def ValuesInert : List Piece → Prop
  | [] => True
  | .char c :: ps => Inert matchBrackets (ps.flatMap (Piece.half s p)) [c] ∧ ValuesInert ps
  | .plain r :: ps =>
    Inert matchBrackets (ps.flatMap (Piece.half s p)) (s.expand p r) ∧ ValuesInert ps
  | .braced _ :: ps => ValuesInert ps

variable {s p} {ps : List Piece}

lemma first_pass (h : Divided ps) :
    replaceMatches matchPlain (s.expand p) 0 (ps.flatMap Piece.text) =
      ps.flatMap (Piece.half s p) := by
  induction ps with
  | nil => rfl
  | cons piece ps ih =>
    rw [flatMap_cons, flatMap_cons]
    cases piece with
    | char c =>
      have hc : Inert matchPlain (ps.flatMap Piece.text) [c] := ⟨fun hc => (h.1 hc).1, trivial⟩
      rw [Piece.text, replaceMatches_inert hc, ih h.2]
      rfl
    | plain r =>
      rw [Piece.text, cons_append, replaceMatches_found _ h.1, ih h.2]
      rfl
    | braced r =>
      -- a brace is neither a namespace nor a name
      have hn (text : Text) : matchPlain ('{' :: text) = none := by
        simp [matchPlain, matchName, namespaces, isNameChar]
      rw [Piece.text, cons_append, replaceMatches, if_pos rfl, bracedText, cons_append, hn,
        ← cons_append, ← bracedText, replaceMatches_inert h.2.1, ih h.2.2]
      rfl

lemma second_pass (h : Divided ps) (hu : ValuesInert s p ps) :
    replaceMatches matchBrackets (s.expand p) 0 (ps.flatMap (Piece.half s p)) =
      ps.flatMap (Piece.filled s p) := by
  induction ps with
  | nil => rfl
  | cons piece ps ih =>
    rw [flatMap_cons, flatMap_cons]
    cases piece with
    | char c =>
      rw [Piece.half, replaceMatches_inert hu.1, ih h.2 hu.2]
      rfl
    | plain r =>
      rw [Piece.half, replaceMatches_inert hu.1, ih h.2 hu.2]
      rfl
    | braced r =>
      rw [Piece.half, cons_append, replaceMatches_found _ (h.1 _), ih h.2.2 hu]
      rfl

lemma doSubstitute_eq (text : Text) : s.doSubstitute p text =
    replaceMatches matchBrackets (s.expand p) 0
      (replaceMatches matchPlain (s.expand p) 0 text) := by
  unfold doSubstitute
  split
  · rfl
  · next h =>
    have hs (pattern : Text → Option (Reference × Nat)) :
        replaceMatches pattern (s.expand p) 0 text = text := by
      have hi : replaceMatches pattern (s.expand p) 0 (text ++ []) = text ++ [] :=
        replaceMatches_inert (inert_of_not_mem h)
      rwa [append_nil] at hi
    rw [hs, hs]

/-- What a text becomes, reference by reference. -/
lemma doSubstitute_pieces (h : Divided ps) (hu : ValuesInert s p ps) :
    s.doSubstitute p (ps.flatMap Piece.text) = ps.flatMap (Piece.filled s p) := by
  rw [doSubstitute_eq, first_pass h, second_pass h hu]

end

def basicClasses : CharClasses where
  isWhitespace c := c = ' '
  isAlphabetic := Char.isUpper
  isAlphanumeric := Char.isUpper
  space := rfl
  underscore := rfl
  marks := by simp
  letters c hc := decide_eq_false (by rintro rfl; cases hc)

/-- A reference takes a local value, a global one if there is no local one, or else nothing. -/
def Inherits (loader : DotEnv) (vars : Vars) (name value : Text) : Prop :=
  match (vars.lookup name).join, (loader.localVars.lookup name).join with
  | none, none => value = (loader.globalVars name).getD []
  | own, given => own = some value ∨ given = some value

/-- The key that a line gives a value. -/
def assignedKey (chars : CharClasses) (line : Text) : Option Text :=
  match chars.parseLine line with
  | .ok (some (key, _)) => some key
  | _ => none

/-- The loader of the file behind those that have given some variables. -/
def fileLoader (chars : CharClasses) (envBag : Text → Option Text) (taskEnv moonEnv dotEnv : Vars) :
    DotEnv :=
  ⟨chars, envBag, moonEnv ∪ taskEnv ∪ dotEnv⟩

section

variable {loader : DotEnv} {vars vars' : Vars} {key : Text} {lines later : List Text} {line : Text}

/-- The variables that a loader was given are passed over, so that a reference inherits only
where the file or the globals hold the same. -/
lemma getReplacementValue_inherits_iff {name : Text} (hne : name ≠ key) :
    Inherits loader vars name ((loader.substitutor vars).getReplacementValue (some key) name) ↔
      (vars.lookup name).join ≠ none ∨ (loader.localVars.lookup name).join = none ∨
        (loader.localVars.lookup name).join = some ((loader.globalVars name).getD []) := by
  unfold Inherits getReplacementValue DotEnv.substitutor
  rw [if_neg (fun h => hne (Option.some.inj h).symm)]
  cases (vars.lookup name).join <;> cases (loader.localVars.lookup name).join <;> simp

lemma loadLine_keeps {line : Text × Nat} (hk : assignedKey loader.chars line.1 ≠ some key)
    (h : loader.loadLine vars line = .ok vars') : vars'.lookup key = vars.lookup key := by
  unfold DotEnv.loadLine at h
  split at h
  · cases h
  · cases h
    rfl
  · next k value quote hp =>
    cases h
    apply Finmap.lookup_insert_of_ne
    rintro rfl
    exact hk (by rw [assignedKey, hp])

/-- A key has the value of the last line that assigns it. -/
lemma load_lookup (hlines : loader.load lines = .ok vars)
    (h : loader.load (lines ++ line :: later) = .ok vars')
    (hlast : ∀ l ∈ later, assignedKey loader.chars l ≠ some key) :
    ∃ next, loader.loadLine vars (line, 1 + lines.length) = .ok next ∧
      vars'.lookup key = next.lookup key := by
  unfold DotEnv.load at h hlines
  rw [zipIdx_append, foldlM_append, hlines] at h
  obtain ⟨_, heq, h⟩ := bind_eq_ok h
  cases heq
  rw [zipIdx_cons, foldlM_cons] at h
  obtain ⟨next, hn, hr⟩ := bind_eq_ok h
  refine ⟨next, hn, foldlM_invariant_mem (P := fun v => v.lookup key = next.lookup key) ?_ rfl hr⟩
  intro l hl v v' hv hs
  rw [loadLine_keeps (hlast l.1 (fst_mem_of_mem_zipIdx hl)) hs, hv]

lemma load_keeps (hlast : ∀ l ∈ lines, assignedKey loader.chars l ≠ some key)
    (h : loader.load lines = .ok vars) : vars.lookup key = none := by
  refine foldlM_invariant_mem (P := fun v => v.lookup key = none) ?_ rfl h
  intro l hl v v' hv hs
  rw [loadLine_keeps (hlast l.1 (fst_mem_of_mem_zipIdx hl)) hs, hv]

end

section

variable {chars : CharClasses} {envBag : Text → Option Text} {taskEnv moonEnv dotEnv result : Vars}
  {key : Text} {files laterFiles : List (List Text)} {file : List Text}

/-- A key has its value from the last file that assigns it. -/
lemma loadFiles_lookup (hfiles : DotEnv.loadFiles chars envBag taskEnv moonEnv files = .ok dotEnv)
    (h : DotEnv.loadFiles chars envBag taskEnv moonEnv (files ++ file :: laterFiles) = .ok result)
    (hlast : ∀ l ∈ laterFiles.flatten, assignedKey chars l ≠ some key) :
    ∃ vars, (fileLoader chars envBag taskEnv moonEnv dotEnv).load file = .ok vars ∧
      result.lookup key = (vars ∪ dotEnv).lookup key := by
  unfold DotEnv.loadFiles at h hfiles
  rw [foldlM_append, hfiles] at h
  obtain ⟨_, heq, h⟩ := bind_eq_ok h
  cases heq
  rw [foldlM_cons] at h
  obtain ⟨next, hn, hr⟩ := bind_eq_ok h
  obtain ⟨vars, hv, hn⟩ := bind_eq_ok hn
  cases hn
  refine ⟨vars, hv, foldlM_invariant_mem
    (P := fun v => v.lookup key = (vars ∪ dotEnv).lookup key) ?_ rfl hr⟩
  intro f hf v v' hv hs
  obtain ⟨own, ho, hs⟩ := bind_eq_ok hs
  cases hs
  have hno : own.lookup key = none :=
    load_keeps (fun l hl => hlast l (mem_flatten.mpr ⟨f, hf, hl⟩)) ho
  rw [← hv, Finmap.lookup_union_right (Finmap.lookup_eq_none.mp hno)]

end

/-- In what the env files of a task define, a reference in the value of a line inherits exactly
where the file has given the variable a value before, or where the globals hold what was given to
the loader. -/
theorem reference_inherits_iff {chars : CharClasses} {envBag : Text → Option Text}
    {taskEnv moonEnv dotEnv vars result : Vars} {files laterFiles : List (List Text)}
    {lines later : List Text} {line key : Text} {quote : QuoteStyle} {before after : List Piece}
    {piece : Piece} {reference : Reference}
    (hfiles : DotEnv.loadFiles chars envBag taskEnv moonEnv files = .ok dotEnv)
    (hlines : (fileLoader chars envBag taskEnv moonEnv dotEnv).load lines = .ok vars)
    (hresult : DotEnv.loadFiles chars envBag taskEnv moonEnv
      (files ++ (lines ++ line :: later) :: laterFiles) = .ok result)
    (hlast : ∀ l ∈ later ++ laterFiles.flatten, assignedKey chars l ≠ some key)
    (hline : chars.parseLine line =
      .ok (some (key, (before ++ piece :: after).flatMap Piece.text, quote)))
    (hquote : quote ≠ .single)
    (hpiece : piece = .plain reference ∨ piece = .braced reference) (hflag : reference.flag = [])
    (hself : reference.name ≠ key) (hdivided : Divided (before ++ piece :: after)) :
    let loader := fileLoader chars envBag taskEnv moonEnv dotEnv
    let filled := Piece.filled (loader.substitutor vars) (some key)
    ValuesInert (loader.substitutor vars) (some key) (before ++ piece :: after) →
    ∃ value, result.lookup key =
        some (some (before.flatMap filled ++ value ++ after.flatMap filled)) ∧
      (Inherits loader vars reference.name value ↔
        (vars.lookup reference.name).join ≠ none ∨
          ((moonEnv ∪ taskEnv ∪ dotEnv).lookup reference.name).join = none ∨
          ((moonEnv ∪ taskEnv ∪ dotEnv).lookup reference.name).join =
            some ((envBag reference.name).getD [])) := by
  intro loader filled hundisturbed
  refine ⟨_, ?_, getReplacementValue_inherits_iff hself⟩
  obtain ⟨vars', hv, hr⟩ := loadFiles_lookup hfiles hresult
    (fun l hl => hlast l (mem_append_right _ hl))
  obtain ⟨next, hn, hv'⟩ := load_lookup hlines hv (fun l hl => hlast l (mem_append_left _ hl))
  have hfilled : filled piece =
      (loader.substitutor vars).getReplacementValue (some key) reference.name := by
    rcases hpiece with rfl | rfl <;> simp [filled, Piece.filled, expand, hflag]
  have hdollar : '$' ∈ (before ++ piece :: after).flatMap Piece.text := by
    rcases hpiece with rfl | rfl <;> simp [Piece.text]
  have hnull (text : Text) (ht : '$' ∉ text) :
      (before ++ piece :: after).flatMap Piece.text ≠ text := by
    rintro rfl
    exact ht hdollar
  have hnext : next.lookup key = some (some ((before ++ piece :: after).flatMap filled)) := by
    unfold DotEnv.loadLine at hn
    rw [show (fileLoader chars envBag taskEnv moonEnv dotEnv).chars = chars from rfl, hline] at hn
    cases hn
    rw [Finmap.lookup_insert, if_neg (not_or.mpr ⟨hnull _ (by decide), hnull _ (by decide)⟩),
      if_neg hquote, doSubstitute_pieces hdivided hundisturbed]
  rw [hr, Finmap.lookup_union_left (Finmap.mem_of_lookup_eq_some (hv'.trans hnext)), hv', hnext,
    flatMap_append, flatMap_cons, hfilled, append_assoc]

theorem previous_file_ignored : ((DotEnv.loadFiles basicClasses (fun _ => none) ∅ ∅
        [["A=x".toList], ["B=$A".toList]]).toOption.bind (Finmap.lookup ['B'])) =
      some (some []) := by
  decide

/-- `C` refers to the variable of an earlier line, and `A` was given by an earlier file. -/
theorem own_line_inherited :
    let files := [["A=x".toList], ["B=y".toList, "C=-$B$A".toList, "D=z".toList], ["B=w".toList]]
    let vars : Vars := Finmap.insert ['B'] (some ['y']) ∅
    let loader := fileLoader basicClasses (fun _ => none) ∅ ∅ (Finmap.insert ['A'] (some ['x']) ∅)
    ∃ result value, DotEnv.loadFiles basicClasses (fun _ => none) ∅ ∅ files = .ok result ∧
      result.lookup ['C'] = some (some (['-'] ++ value ++ [])) ∧
      Inherits loader vars ['B'] value := by
  intro files vars loader
  have hload : ∃ result, DotEnv.loadFiles basicClasses (fun _ => none) ∅ ∅ files = .ok result :=
    ⟨_, rfl⟩
  obtain ⟨result, hr⟩ := hload
  obtain ⟨value, hl, hi⟩ := @reference_inherits_iff basicClasses (fun _ => none) ∅ ∅
    (Finmap.insert ['A'] (some ['x']) ∅) vars result [["A=x".toList]] [["B=w".toList]]
    ["B=y".toList] ["D=z".toList] "C=-$B$A".toList ['C'] .unquoted [.char '-']
    [.plain { namespacing := [], name := ['A'] }] (.plain { namespacing := [], name := ['B'] })
    { namespacing := [], name := ['B'] }
    (by decide) (by decide) hr (by decide) (by decide) (by decide) (.inl rfl) rfl (by decide)
    ⟨by decide, rfl, rfl, trivial⟩ ⟨by decide, by decide, by decide, trivial⟩
  exact ⟨result, value, hr, hl, hi.mpr (.inl (by decide))⟩

section

variable {cs : CharClasses} {pre c : Text} {q : Char} {text : Text} {x : Char} {key : Text}

lemma count_dropWhile {p : Char → Bool} (hx : p x = false) (text : Text) :
    (text.dropWhile p).count x = text.count x := by
  induction text with
  | nil => rfl
  | cons y text ih =>
    rw [dropWhile_cons]
    split
    · next hy => rw [ih, count_cons_of_ne (by rintro rfl; simp [hx] at hy)]
    · rfl

lemma count_trim (hx : cs.isWhitespace x = false) (text : Text) :
    (cs.trim text).count x = text.count x := by
  simp [trim, trimEnd, count_dropWhile hx]

lemma count_unescape (text : Text) : (unescape text).count '#' = text.count '#' := by
  have hes (next : Char) : (escaped next).count '#' = [next].count '#' := by
    unfold escaped
    split <;> simp [count_cons]
  fun_induction unescape text with
  | case1 next text ih =>
    rw [count_append, hes, ih, count_cons, count_cons, count_cons]
    simp
    omega
  | case2 c next text _ ih => rw [count_cons, ih, count_cons (l := next :: text)]
  | case3 text => rfl

/-- No way of quoting hides a comment sign. -/
lemma count_parseValue (v : Text) : (cs.parseValue v).1.count '#' = v.count '#' := by
  have hi {v : Text} {q : Char} (hn : q ≠ '#')
      (h : (v.length ≥ 2 && v.head? = some q && v.getLast? = some q)) :
      v.tail.dropLast.count '#' = v.count '#' := by
    simp only [Bool.and_eq_true, decide_eq_true_eq] at h
    obtain ⟨⟨hln, hh⟩, hl⟩ := h
    obtain ⟨_ | ⟨first, inner⟩, rfl⟩ := getLast?_eq_some_iff.mp hl
    · simp at hln
    · simp at hh
      simp [hh, hn]
  rw [← count_trim (cs.marks '#' (by simp)).1 v]
  unfold parseValue
  dsimp only
  split
  · next h => exact hi (by decide) h
  · split
    · next h => rw [count_unescape, hi (by decide) h]
    · rfl

lemma rfind_eq_none {pattern : Text} (hn : pattern ≠ []) :
    rfind pattern text = none ↔ ¬ pattern <:+: text := by
  induction text with
  | nil => simp [rfind, hn]
  | cons x text ih =>
    rw [rfind, infix_cons_iff, not_or, ← ih, ← isPrefixOf_iff_prefix]
    cases rfind pattern text <;> simp

lemma rfind_append {pattern : Text} {i : Nat} (h : rfind pattern text = some i) :
    rfind pattern (pre ++ text) = some (pre.length + i) := by
  induction pre with
  | nil => simpa using h
  | cons x pre ih => simp [rfind, ih, Nat.add_right_comm]

/-- A comment goes from its start, or something of it stays. -/
lemma stripComment_comment (pre c : Text) :
    if [' ', '#'] <:+: c ∨ (getQuoteIndices (pre ++ ' ' :: '#' :: c)).any
        (fun (_, r) => pre.length ≤ r) then
      ∃ rest, stripComment (pre ++ ' ' :: '#' :: c) = pre ++ ' ' :: '#' :: rest
    else stripComment (pre ++ ' ' :: '#' :: c) = pre := by
  unfold stripComment
  cases hf : rfind [' ', '#'] c with
  | none =>
    have hfr : rfind [' ', '#'] (' ' :: '#' :: c) = some 0 := by simp [rfind, hf]
    rw [rfind_append hfr]
    have hi := (rfind_eq_none (by decide)).mp hf
    cases hquotes : getQuoteIndices (pre ++ ' ' :: '#' :: c) with
    | none => simp [hi]
    | some qs =>
      by_cases hl : pre.length ≤ qs.2
      · simp [hl, Nat.not_lt.mpr hl]
      · simp [hl, Nat.lt_of_not_le hl, hi]
  | some i =>
    have hlt : rfind [' ', '#'] (' ' :: '#' :: c) = some (i + 2) := by simp [rfind, hf]
    rw [rfind_append hlt, if_pos (Or.inl ?_)]
    · dsimp only
      split
      · exact ⟨c.take i, by simp [take_append]⟩
      · exact ⟨c, rfl⟩
    · by_contra h
      simp [(rfind_eq_none (by decide)).mpr h] at hf

lemma rfind_quote : rfind [q] text = none ↔ q ∉ text := by
  induction text with
  | nil => simp [rfind]
  | cons x text ih => cases h : rfind [q] text <;> simp_all [rfind]

lemma quoteIndices_eq_none : quoteIndices q text = none ↔ text.count q ≤ 1 := by
  induction text with
  | nil => simp [quoteIndices]
  | cons x text ih =>
    have hmem : rfind [q] text = none ↔ q ∉ text := rfind_quote
    by_cases hx : x = q
    · cases h : rfind [q] text <;>
        simp_all [quoteIndices, rfind, findIdx?_cons, count_eq_zero]
    · cases h : rfind [q] text <;>
        simp_all [quoteIndices, rfind, findIdx?_cons, Ne.symm hx]

/-- The last quote of a line stands in its comment or before it. -/
lemma rfind_comment (hs : q ≠ ' ') (hsg : q ≠ '#') {r : Nat}
    (h : rfind [q] (pre ++ ' ' :: '#' :: c) = some r) : pre.length ≤ r ↔ q ∈ c := by
  induction pre generalizing r with
  | nil =>
    have hm : q ∈ ' ' :: '#' :: c := by
      by_contra hn
      simp [rfind_quote.mpr hn] at h
    simpa [hs, hsg] using hm
  | cons x pre ih =>
    rw [cons_append, rfind] at h
    cases hr : rfind [q] (pre ++ ' ' :: '#' :: c) with
    | some i =>
      rw [hr] at h
      obtain rfl := Option.some.inj h
      simpa using ih hr
    | none =>
      have hn := rfind_quote.mp hr
      simp_all
      omega

/-- Whether a comment is kept for the quotes of its line. -/
lemma any_getQuoteIndices (pre c : Text) :
    (getQuoteIndices (pre ++ ' ' :: '#' :: c)).any (fun (_, r) => pre.length ≤ r) ↔
      if 2 ≤ pre.count '\'' + c.count '\'' then '\'' ∈ c
      else 2 ≤ pre.count '"' + c.count '"' ∧ '"' ∈ c := by
  have hq (q : Char) (hsp : q ≠ ' ') (hsg : q ≠ '#') :
      if 2 ≤ pre.count q + c.count q then
        ∃ l r, quoteIndices q (pre ++ ' ' :: '#' :: c) = some (l, r) ∧ (pre.length ≤ r ↔ q ∈ c)
      else quoteIndices q (pre ++ ' ' :: '#' :: c) = none := by
    have hc : quoteIndices q (pre ++ ' ' :: '#' :: c) = none ↔ _ := quoteIndices_eq_none
    rw [count_append, count_cons_of_ne hsp.symm, count_cons_of_ne hsg.symm] at hc
    split
    · next hmany =>
      cases hf : quoteIndices q (pre ++ ' ' :: '#' :: c) with
      | none => exact absurd (hc.mp hf) (by omega)
      | some qs =>
        refine ⟨qs.1, qs.2, rfl, rfind_comment hsp hsg ?_⟩
        simp only [quoteIndices, Option.bind_eq_bind, Option.bind_eq_some_iff] at hf
        grind
    · next hfew => exact hc.mpr (by omega)
  have hs := hq '\'' (by decide) (by decide)
  have hd := hq '"' (by decide) (by decide)
  unfold getQuoteIndices
  split at hs
  · obtain ⟨l, r, heq, hl⟩ := hs
    simp [*]
  · split at hd
    · obtain ⟨l, r, heq, hl⟩ := hd
      simp [*]
    · simp [*]

lemma valid_of_parseKey (h : cs.parseKey key = .ok key) :
    key ≠ [] ∧ ∀ x ∈ key, cs.isWhitespace x = false ∧ x ∉ ['#', '=', '"', '\''] := by
  unfold parseKey at h
  split at h
  · cases h
  · split at h
    · cases h
    · split at h
      · next ha =>
        refine ⟨cons_ne_nil _ _, fun x hx => ?_⟩
        have hc := all_eq_true.mp ha x hx
        simp only [Bool.or_eq_true, decide_eq_true_eq] at hc
        rcases hc with hl | rfl
        · exact ⟨cs.letters x hl, fun hm => by simp [cs.marks x hm] at hl⟩
        · exact ⟨cs.underscore, by decide⟩
      · cases h

lemma trimEnd_append (hx : cs.isWhitespace x = false) (b a : Text) :
    cs.trimEnd (b ++ x :: a) = b ++ x :: cs.trimEnd a := by
  simp only [trimEnd, reverse_append, reverse_cons, dropWhile_append, append_assoc]
  split <;> simp_all

lemma trim_append {y : Char} (hx : cs.isWhitespace x = false)
    (hy : cs.isWhitespace y = false) (b a : Text) :
    cs.trim (x :: (b ++ y :: a)) = x :: (b ++ y :: cs.trimEnd a) := by
  rw [trim, dropWhile_cons_of_neg (by simp [hx]), ← cons_append, trimEnd_append hy]
  rfl

lemma parseLine_eq {r kept l : Text} (hk : cs.parseKey key = .ok key)
    (htr : cs.trim l = key ++ '=' :: r) (hs : stripComment (key ++ '=' :: r) = key ++ '=' :: kept) :
    cs.parseLine l = .ok (some (key, cs.parseValue (cs.trim kept))) := by
  obtain ⟨hn, hv⟩ := valid_of_parseKey hk
  have ha (x : Char) (hx : x ∈ key) : decide (x ≠ '=') := by
    have := (hv x hx).2
    simp_all
  have ht (text : Text) : (key ++ '=' :: text).takeWhile (· ≠ '=') = key := by
    rw [takeWhile_append_of_pos ha]
    simp
  have hex : ¬ "export ".toList.isPrefixOf (key ++ '=' :: r) := by
    intro h
    obtain ⟨behind, heq⟩ := isPrefixOf_iff_prefix.mp h
    have hk := congrArg (takeWhile (· ≠ '=')) heq
    rw [ht] at hk
    have := (hv ' ' (by simp [← hk])).1
    simp [cs.space] at this
  have hf (text : Text) (h : ∀ x ∈ text, cs.isWhitespace x = false) :
      text.dropWhile cs.isWhitespace = text := by
    cases text <;> simp_all
  have hsl : cs.trim key = key := by
    rw [trim, hf key (fun x hx => (hv x hx).1), trimEnd, hf key.reverse, reverse_reverse]
    exact fun x hx => (hv x (mem_reverse.mp hx)).1
  have hsm : ¬ (key ++ '=' :: r = [] ∨ (key ++ '=' :: r).head? = some '#') := by
    obtain ⟨f, key, rfl⟩ := exists_cons_of_ne_nil hn
    have := (hv f mem_cons_self).2
    simp_all
  have hm : '=' ∈ key ++ '=' :: kept := by simp
  have hd : ((key ++ '=' :: kept).dropWhile (· ≠ '=')).tail = kept := by
    rw [dropWhile_append_of_pos ha]
    simp
  simp only [parseLine, htr, if_neg hsm, if_neg hex, hs, if_pos hm, ht, hd, hsl, hk]
  rfl

/-- The value as it is written in this style. -/
def quoted : QuoteStyle → Text → Text
  | .single, v => '\'' :: (v ++ ['\''])
  | .double, v => '"' :: (v ++ ['"'])
  | .unquoted, v => v

lemma parseValue_quoted {v : Text} {st : QuoteStyle} (hv : '\'' ∉ v ∧ '"' ∉ v)
    (hp : st = .unquoted → cs.trim v = v) :
    cs.parseValue (cs.trim (quoted st v)) = (if st = .double then unescape v else v, st) := by
  have ht : cs.trim (quoted st v) = quoted st v := by
    have hm (q : Char) (h : q ∈ ['#', '=', '"', '\'']) :
        cs.trim (q :: (v ++ [q])) = q :: (v ++ [q]) :=
      trim_append (cs.marks q h).1 (cs.marks q h).1 v []
    cases st with
    | single => exact hm '\'' (by decide)
    | double => exact hm '"' (by decide)
    | unquoted => exact hp rfl
  have hl (q : Char) : (q :: (v ++ [q])).getLast? = some q := by
    rw [← cons_append, getLast?_concat]
  rw [parseValue, ht, ht]
  cases st with
  | single => simp [quoted, hl]
  | double => simp [quoted, hl]
  | unquoted =>
    have hh (q : Char) (h : q ∉ v) : v.head? ≠ some q := fun hh => h (mem_of_mem_head? hh)
    simp [quoted, hh _ hv.1, hh _ hv.2]

/-- What a comment may hold behind a value. -/
def Harmless (style : QuoteStyle) (value c : Text) : Prop :=
  ¬ [' ', '#'] <:+: c ∧
    match style with
    | .single => '\'' ∉ c
    | .double => c.count '\'' ≤ 1 ∧ '"' ∉ c ∧ unescape value = value
    | .unquoted => c.count '\'' ≤ 1 ∧ c.count '"' ≤ 1

lemma harmless_iff {v : Text} {st : QuoteStyle} (hk : cs.parseKey key = .ok key)
    (hv : '\'' ∉ v ∧ '"' ∉ v) :
    Harmless st v c ↔ ¬ ([' ', '#'] <:+: c ∨ (getQuoteIndices (key ++ '=' :: quoted st v ++
        ' ' :: '#' :: c)).any (fun (_, r) => (key ++ '=' :: quoted st v).length ≤ r)) ∧
      (st = .double → unescape v = v) := by
  have hky (q : Char) (h : q ∈ ['"', '\'']) : key.count q = 0 :=
    count_eq_zero.mpr (fun hm => (valid_of_parseKey hk).2 q hm |>.2 (by simp_all))
  have hs := hky '\'' (by decide)
  have hd := hky '"' (by decide)
  have hfirst : 0 < c.count '\'' ↔ '\'' ∈ c := count_pos_iff
  have hsecond : 0 < c.count '"' ↔ '"' ∈ c := count_pos_iff
  rw [any_getQuoteIndices, not_or, and_assoc]
  unfold Harmless
  refine and_congr_right fun _ => ?_
  cases st <;>
    simp [quoted, hs, hd, count_eq_zero.mpr hv.1, count_eq_zero.mpr hv.2]
  all_goals grind

/-- A value is read back in front of exactly the comments that hold no other comment sign and
no quote that the search for the quotes of the line takes for its own. -/
theorem dotenv_line_parsed_iff (chars : CharClasses) (k v c : Text) (style : QuoteStyle)
    (hk : chars.parseKey k = .ok k) (hv : '\'' ∉ v ∧ '"' ∉ v)
    (hplain : style = .unquoted → chars.trim v = v) :
    chars.parseLine (k ++ '=' :: (quoted style v ++ ' ' :: '#' :: c)) = .ok (some (k, v, style)) ↔
      Harmless style v (chars.trimEnd c) := by
  have hh := (chars.marks '#' (by decide)).1
  have ht : chars.trim (k ++ '=' :: (quoted style v ++ ' ' :: '#' :: c)) =
      k ++ '=' :: (quoted style v ++ ' ' :: '#' :: chars.trimEnd c) := by
    obtain ⟨hn, hvl⟩ := valid_of_parseKey hk
    obtain ⟨f, rest, rfl⟩ := exists_cons_of_ne_nil hn
    simpa using trim_append (hvl f mem_cons_self).1 hh (rest ++ '=' :: (quoted style v ++ [' '])) c
  rw [harmless_iff hk hv]
  have hs := stripComment_comment (k ++ '=' :: quoted style v) (chars.trimEnd c)
  split at hs
  · next hkp =>
    obtain ⟨rest, hr⟩ := hs
    -- a comment sign stays, and the value has one more than it was written with
    have hc : (quoted style v).count '#' = v.count '#' := by cases style <;> simp [quoted]
    have hst : stripComment (k ++ '=' :: (quoted style v ++ ' ' :: '#' :: chars.trimEnd c)) =
        k ++ '=' :: (quoted style v ++ ' ' :: '#' :: rest) := by
      simpa using hr
    rw [parseLine_eq hk ht hst]
    refine iff_of_false (fun h => ?_) (fun h => h.1 hkp)
    have hva := congrArg (count '#' ∘ Prod.fst) (Prod.mk.inj (Option.some.inj (Except.ok.inj h))).2
    simp [count_parseValue, count_trim hh, hc] at hva
  · next hct =>
    rw [parseLine_eq hk ht (by simpa using hs), parseValue_quoted hv hplain, and_iff_right hct]
    cases style <;> simp

theorem second_comment_sign_kept :
    basicClasses.parseLine "A=x #B #C".toList = .ok (some (['A'], "x #B".toList, .unquoted)) := by
  decide

theorem single_quoted_parsed :
    basicClasses.parseLine "A='x' #C".toList = .ok (some (['A'], ['x'], .single)) :=
  (dotenv_line_parsed_iff basicClasses ['A'] ['x'] ['C'] .single (by decide) (by decide)
    (by decide)).mpr ⟨by decide, by decide⟩

end

end Moon.Proofs
