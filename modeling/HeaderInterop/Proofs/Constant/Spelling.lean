import HeaderInterop.Proofs.Constant.NamesRead

/-!
The type of a text and the spelling of the names in it. Wherever a name is read as a part of a
number, two names that differ in a letter give two types, so the type is the same under all names
exactly if no name is read.
-/

namespace HeaderInterop.Literal

open Macro (IsToken Renaming isWord joined joined_append joined_cons joined_nil joined_singleton)

theorem joined_map_swap {name other : String} (hname : isWord name = true)
    (hother : isWord other = true) (front back : List String) :
    joined ((front ++ name :: back).map (Renaming.swap name other hname hother).apply) =
      joined (front.map (Renaming.swap name other hname hother).apply) ++
        (other.toList ++ joined (back.map (Renaming.swap name other hname hother).apply)) := by
  rw [List.map_append, List.map_cons, Renaming.swap_apply, joined_append, joined_cons]

/-! A suffix -/

/-- The last of two letters at the end is a suffix. -/
theorem kindOfChars?_swap_suffix {front : List String} {name : String} (hname : isWord name = true)
    (hnumeric : isNumeric (joined (front ++ [name])) = true) {other : String}
    (hother : isWord other = true) (hlong : 2 ≤ other.toList.length) {kind : Kind}
    (hending : kindOfEnding? (Text.lowerAscii other.toList) = some kind) :
    kindOfChars? (joined ((front ++ [name]).map (Renaming.swap name other hname hother).apply)) =
      some kind := by
  obtain ⟨c, tail, hlist, hc, -⟩ := Macro.exists_of_isWord hother
  have hnumber := (isNumeric_map (Renaming.swap name other hname hother) (front ++ [name])).trans
    hnumeric
  rw [joined_map_swap, List.map_nil, joined_nil, List.append_nil] at hnumber ⊢
  refine kindOfChars?_of_ending hnumber hc (by simp [hlist]) ?_
  rw [(endsAlike_append (Or.inl hlong) _ []).kindOfEnding?_eq, List.nil_append]
  exact hending

/-! A base -/

/-- Without a suffix only the mark of hexadecimal digits gives the unsigned type. -/
theorem kindOfChars?_eq_uint_iff {value : List Char} {c : Char} (hnumeric : isNumeric value = true)
    (hc : Text.isWordStart c = true) (hmem : c ∈ value)
    (hending : kindOfEnding? (Text.lowerAscii value) = none) :
    kindOfChars? value = some .uint ↔ isHex value = true := by
  rw [kindOfChars?_of_mem hnumeric hc hmem, hending, Option.none_or, kindOfNoSuffix?]
  cases isHex value with
  | true => simp
  | false =>
    simp only [Bool.false_eq_true, if_false, iff_false]
    split_ifs <;> simp

/-- Behind a zero one letter marks hexadecimal digits and another one does not. -/
theorem kindOfChars?_swap_base {name : String} (hname : isWord name = true) {rest : List String}
    (htokens : ∀ token ∈ "0" :: name :: rest, IsToken token.toList)
    (hnumeric : isNumeric (joined ("0" :: name :: rest)) = true)
    (hlast : ∀ token ∈ ("0" :: name :: rest).getLast?, isWord token = false)
    (hending : kindOfEnding? (Text.lowerAscii (joined ("0" :: name :: rest))) = none)
    {other : String} (hother : isWord other = true) :
    kindOfChars? (joined
        (("0" :: name :: rest).map (Renaming.swap name other hname hother).apply)) = some .uint ↔
      ['x'].isPrefixOf other.toList = true ∨ ['X'].isPrefixOf other.toList = true := by
  obtain ⟨c, tail, hlist, hc, -⟩ := Macro.exists_of_isWord hother
  have hnumber := (isNumeric_map (Renaming.swap name other hname hother) _).trans hnumeric
  have halike := endsAlike_map (Renaming.swap name other hname hother) htokens hlast
  rw [← halike.kindOfEnding?_eq] at hending
  have hjoined := joined_map_swap hname hother ["0"] rest
  rw [List.map_singleton, Renaming.apply_other _ (show isWord "0" = false by decide),
    List.singleton_append, joined_singleton, hlist] at hjoined
  rw [kindOfChars?_eq_uint_iff hnumber hc (by rw [hjoined]; simp) hending, hjoined, hlist]
  simp [isHex, List.isPrefixOf]

/-! An exponent -/

/-- Without a suffix and a mark of hexadecimal digits a fraction with a point has its own type. -/
theorem kindOfChars?_eq_double_iff {value : List Char} {c : Char}
    (hnumeric : isNumeric value = true) (hc : Text.isWordStart c = true) (hmem : c ∈ value)
    (hlast : ∀ c ∈ value.getLast?, c.isDigit = true) (hhex : isHex value = false) :
    kindOfChars? value = some .double ↔ '.' ∈ value ∧ Text.isFraction value = true := by
  have hnone (part : List Char) (hne : part ≠ []) (hletters : part ⊆ ['u', 'l', 'f']) :=
    endsWith_eq_false_of_isDigit hlast hne hletters
  rw [kindOfChars?_of_mem hnumeric hc hmem, kindOfEnding?, kindOfNoSuffix?, hhex]
  simp only [hnone ['f'] (by simp) (by simp), hnone ['u', 'l'] (by simp) (by simp),
    hnone ['l', 'u'] (by simp) (by simp), hnone ['u'] (by simp) (by simp),
    hnone ['l'] (by simp) (by simp), Bool.false_and, Bool.or_false, Bool.false_eq_true,
    if_false, Option.none_or, Bool.and_eq_true, List.contains_iff_mem]
  split_ifs with hfraction <;> simp [hfraction]

theorem isHex_of_isPointed {value : List Char} (h : Text.IsPointed value) :
    isHex value = false := by
  have hmark {x : Char} (hx : Text.isWordStart x = true) : ['0', x].isPrefixOf value = false := by
    rw [Bool.eq_false_iff, Ne, List.isPrefixOf_iff_prefix]
    rintro ⟨rest, rfl⟩
    exact h.notMem hx (by simp)
  rw [isHex, hmark (by decide), hmark (by decide), Bool.or_false]

/-- Between a number with a point and digits one letter is the mark of an exponent. -/
theorem kindOfChars?_swap_exponent {front back : List String} {name : String}
    (hname : isWord name = true) (hfront : Text.IsPointed (joined front))
    (hback : (Text.digits? (Text.dropSign (joined back))).isSome = true)
    (hnumeric : isNumeric (joined (front ++ name :: back)) = true) {other : String}
    (hother : isWord other = true) {c : Char} (hlist : other.toList = [c]) :
    kindOfChars? (joined
        ((front ++ name :: back).map (Renaming.swap name other hname hother).apply)) =
      some .double ↔ c = 'e' ∨ c = 'E' := by
  have hc : Text.isWordStart c = true := by
    simpa [isWord, hlist] using hother
  have hnumber := (isNumeric_map (Renaming.swap name other hname hother) _).trans hnumeric
  have hjoined := joined_map_swap hname hother front back
  rw [Renaming.map_of_forall (isWord_eq_false_of_notMem fun c => hfront.notMem),
    Renaming.map_of_forall (isWord_eq_false_of_notMem fun c => Text.notMem_of_isSome_digits? hback),
    hlist, List.singleton_append] at hjoined
  rw [hjoined] at hnumber ⊢
  have hlast : ∀ d ∈ (joined front ++ c :: joined back).getLast?, d.isDigit = true := by
    have hne : joined back ≠ [] := by
      intro hnil
      rw [hnil] at hback
      cases hback
    rw [List.getLast?_append_cons, List.getLast?_cons_of_ne_nil hne]
    exact Text.isDigit_getLast? hback
  have hhex : isHex (joined front ++ c :: joined back) = false := by
    rw [isHex_append_cons hc, isHex_of_isPointed hfront]
    intro hzero
    have hpoint := hfront.mem_point
    rw [hzero] at hpoint
    exact absurd hpoint (by decide)
  rw [kindOfChars?_eq_double_iff hnumber hc (by simp) hlast hhex, and_comm,
    Text.isFraction_append_letter_iff hc]
  simp [hfront, hback]

/-! All names -/

/-- Two renamings that give two types. -/
def DependsOnNames (tokens : List String) : Prop :=
  ∃ r other : Renaming, kindOfChars? (joined (tokens.map r.apply)) ≠
    kindOfChars? (joined (tokens.map other.apply))

theorem dependsOnNames_of_suffix {front : List String} {name : String}
    (hname : isWord name = true) (hnumeric : isNumeric (joined (front ++ [name])) = true) :
    DependsOnNames (front ++ [name]) := by
  have hunsigned := kindOfChars?_swap_suffix hname hnumeric (show isWord "qu" = true by decide)
    (by decide) (show kindOfEnding? (Text.lowerAscii "qu".toList) = some .uint by decide)
  have hlong := kindOfChars?_swap_suffix hname hnumeric (show isWord "ql" = true by decide)
    (by decide) (show kindOfEnding? (Text.lowerAscii "ql".toList) = some .long by decide)
  refine ⟨Renaming.swap name "qu" hname (by decide), Renaming.swap name "ql" hname (by decide), ?_⟩
  rw [hunsigned, hlong]
  decide

theorem dependsOnNames_of_readsName {tokens : List String}
    (htokens : ∀ token ∈ tokens, IsToken token.toList)
    (hnumeric : isNumeric (joined tokens) = true) (hreads : ReadsName tokens) :
    DependsOnNames tokens := by
  cases hreads with
  | suffix heq hname =>
    subst heq
    exact dependsOnNames_of_suffix hname hnumeric
  | @base name rest heq hname hending =>
    subst heq
    by_cases hlast : ∀ token ∈ ("0" :: name :: rest).getLast?, isWord token = false
    · have hbase (other : String) (hother : isWord other = true) :=
        kindOfChars?_swap_base hname htokens hnumeric hlast hending hother
      have hmark := (hbase "x" (by decide)).mpr (by decide)
      have hnone := mt (hbase "y" (by decide)).mp (by decide)
      exact ⟨_, _, fun heq => hnone (heq.symm.trans hmark)⟩
    · push Not at hlast
      obtain ⟨last, hmem, hword⟩ := hlast
      obtain ⟨front, htext⟩ := List.getLast?_eq_some_iff.mp hmem
      rw [htext] at hnumeric ⊢
      exact dependsOnNames_of_suffix (by simpa using hword) hnumeric
  | exponent heq hname hfront hback =>
    subst heq
    have hexponent (other : String) (hother : isWord other = true) (c : Char)
        (hlist : other.toList = [c]) :=
      kindOfChars?_swap_exponent hname hfront hback hnumeric hother hlist
    have hmark := (hexponent "e" (by decide) 'e' (by decide)).mpr (by decide)
    have hnone := mt (hexponent "g" (by decide) 'g' (by decide)).mp (by decide)
    exact ⟨_, _, fun heq => hnone (heq.symm.trans hmark)⟩

theorem isToken_of_mem_normalTokens {text token : String}
    (h : token ∈ normalTokens (Macro.tokenize text)) : IsToken token.toList := by
  obtain ⟨raw, hraw, rfl⟩ := List.mem_map.mp h
  obtain ⟨piece, hpiece, rfl⟩ := List.mem_map.mp (stripParens_subset _ hraw)
  rw [shortenedToken, String.toList_ofList, String.toList_ofList]
  exact isToken_shortenSuffix (Macro.isToken_of_mem_pieces hpiece)

/-- The type that is read off a replacement text does not depend on the names in it exactly if the
text is not numeric or no name is where the letters of a number may be. -/
theorem kind?_normalize_map_iff (text : String) :
    (∀ r : Renaming, kind? (normalize ((Macro.tokenize text).map r.apply)) =
        kind? (normalize (Macro.tokenize text))) ↔
      ¬ (isNumeric (normalize (Macro.tokenize text)).toList = true ∧
        ReadsName (normalTokens (Macro.tokenize text))) := by
  have htokens (token : String) (h : token ∈ normalTokens (Macro.tokenize text)) :=
    isToken_of_mem_normalTokens h
  simp only [kind?, toList_normalize, normalTokens_map]
  constructor
  · rintro hsame ⟨hnumeric, hreads⟩
    obtain ⟨r, other, hne⟩ := dependsOnNames_of_readsName htokens hnumeric hreads
    exact hne ((hsame r).trans (hsame other).symm)
  · exact fun hreads r => kindOfChars?_map r htokens hreads

/-- The last letter of a name is read as a suffix of the number in front of it. -/
theorem kind?_normalize_pixel :
    kind? (normalize (Macro.tokenize "2*PIXEL")) = some .long ∧
      kind? (normalize ((Macro.tokenize "2*PIXEL").map
        (Renaming.swap "PIXEL" "PIXEM" (by decide) (by decide)).apply)) = none := by
  decide +kernel

end HeaderInterop.Literal
