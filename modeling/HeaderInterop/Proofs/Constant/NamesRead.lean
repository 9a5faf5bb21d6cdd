import HeaderInterop.Proofs.Constant.Renaming

/-!
Where a name is read as a part of a number. The type of a text is that of its letters and digits
whatever token they belong to, so a name at the end of a numeric text, behind a lone zero or between
the digits of a fraction decides the type by its spelling. The main statement says that these are
the only places.
-/

namespace HeaderInterop.Literal

open Macro (IsToken Renaming isWord joined joined_append joined_cons joined_singleton)

/-- A name stands where letters of a number may stand. -/
inductive ReadsName (tokens : List String) : Prop where
  /-- At the end, where a suffix is looked for. -/
  | suffix {front : List String} {name : String} (htokens : tokens = front ++ [name])
      (hname : isWord name = true)
  /-- Behind a zero, where hexadecimal digits are marked, and no suffix is at the end. -/
  | base {name : String} {rest : List String} (htokens : tokens = "0" :: name :: rest)
      (hname : isWord name = true)
      (hending : kindOfEnding? (Text.lowerAscii (joined tokens)) = none)
  /-- Between a number with a point and digits, where an exponent is marked. -/
  | exponent {front back : List String} {name : String} (htokens : tokens = front ++ name :: back)
      (hname : isWord name = true) (hfront : Text.IsPointed (joined front))
      (hback : (Text.digits? (Text.dropSign (joined back))).isSome = true)

/-! Endings -/

/-- The letters that a suffix is told from are the same. -/
def EndsAlike (text other : List Char) : Prop :=
  ∀ part, part ≠ [] → part.length ≤ 2 → part ⊆ ['u', 'l', 'f'] →
    Text.endsWith part (Text.lowerAscii text) = Text.endsWith part (Text.lowerAscii other)

/-- A last token of two characters decides how the text ends, and so does one that is no letter. -/
theorem endsAlike_append {last : List Char}
    (h : 2 ≤ last.length ∨ ∃ c, last = [c] ∧ Text.isWordStart c = false) (front other : List Char) :
    EndsAlike (front ++ last) (other ++ last) := by
  intro part hne hlength hletters
  rw [Text.lowerAscii_append, Text.lowerAscii_append]
  rcases h with hlong | ⟨c, rfl, hc⟩
  · have hle : part.length ≤ (Text.lowerAscii last).length := by
      rw [Text.lowerAscii, List.length_map]
      exact Nat.le_trans hlength hlong
    rw [Text.endsWith_append_of_length_le hle, Text.endsWith_append_of_length_le hle]
  · have hnone (text : List Char) : Text.endsWith part (text ++ Text.lowerAscii [c]) = false := by
      refine Text.endsWith_eq_false_of_notMem hne fun d hd hmem => ?_
      obtain rfl : c.toLower = d := by simpa [Text.lowerAscii] using hd
      rw [Text.isWordStart_of_toLower (hletters hmem)] at hc
      cases hc
    rw [hnone, hnone]

namespace EndsAlike

variable {text other : List Char}

theorem kindOfEnding?_eq (h : EndsAlike text other) :
    kindOfEnding? (Text.lowerAscii text) = kindOfEnding? (Text.lowerAscii other) := by
  unfold kindOfEnding?
  rw [h ['u', 'l'] (by simp) (by simp) (by simp), h ['l', 'u'] (by simp) (by simp) (by simp),
    h ['u'] (by simp) (by simp) (by simp), h ['l'] (by simp) (by simp) (by simp)]

theorem endsWith_eq (h : EndsAlike text other) :
    Text.endsWith ['f'] (Text.lowerAscii text) = Text.endsWith ['f'] (Text.lowerAscii other) :=
  h ['f'] (by simp) (by simp) (by simp)

end EndsAlike

/-- One of the letters of a suffix is not the letter of a fraction. -/
theorem endsWith_eq_false_of_kindOfEnding? {lower : List Char} {kind : Kind}
    (h : kindOfEnding? lower = some kind) : Text.endsWith ['f'] lower = false := by
  rw [← Bool.not_eq_true]
  intro hends
  obtain ⟨front, rfl⟩ := Text.endsWith_eq_true_iff.mp hends
  have hnone {part : List Char} (hne : part ≠ []) (hletter : 'f' ∉ part) :
      Text.endsWith part (front ++ ['f']) = false := by
    refine Text.endsWith_eq_false_of_notMem hne fun c hc => ?_
    obtain rfl : 'f' = c := by simpa using hc
    exact hletter
  unfold kindOfEnding? at h
  simp [hnone] at h

theorem kindOfChars?_of_ending {value : List Char} {c : Char} {kind : Kind}
    (hnumeric : isNumeric value = true) (hc : Text.isWordStart c = true) (hmem : c ∈ value)
    (hending : kindOfEnding? (Text.lowerAscii value) = some kind) :
    kindOfChars? value = some kind := by
  have hfloat := endsWith_eq_false_of_kindOfEnding? hending
  rw [kindOfChars?_of_mem hnumeric hc hmem, hfloat, Bool.false_and, if_neg Bool.false_ne_true,
    hending, Option.some_or]

theorem length_or_single {token : String} (htoken : IsToken token.toList)
    (hword : isWord token = false) :
    2 ≤ token.toList.length ∨ ∃ c, token.toList = [c] ∧ Text.isWordStart c = false := by
  cases hlist : token.toList with
  | nil =>
    rw [hlist] at htoken
    exact htoken.elim
  | cons c tail =>
    cases tail with
    | nil =>
      refine Or.inr ⟨c, rfl, ?_⟩
      rw [← Bool.not_eq_true]
      intro hc
      have hstart : ∀ d ∈ token.toList.head?, Text.isWordStart d = true := by
        rw [hlist]
        rintro d ⟨⟩
        exact hc
      rw [Macro.isWord_of_isToken htoken hstart] at hword
      cases hword
    | cons d tail => exact Or.inl (by simp)

/-- Renaming leaves the ending alone where the last token is no name. -/
theorem endsAlike_map (r : Renaming) {tokens : List String}
    (htokens : ∀ token ∈ tokens, IsToken token.toList)
    (hlast : ∀ token ∈ tokens.getLast?, isWord token = false) :
    EndsAlike (joined (tokens.map r.apply)) (joined tokens) := by
  rcases List.eq_nil_or_concat' tokens with rfl | ⟨front, last, rfl⟩
  · intro part _ _ _
    rfl
  · have hword : isWord last = false := hlast last (by simp)
    have htoken := htokens last (by simp)
    rw [List.map_append, List.map_singleton, r.apply_other hword, joined_append, joined_append,
      joined_singleton]
    exact endsAlike_append (length_or_single htoken hword) _ _

/-! Shifts -/

theorem lt_notMem_of_isWord {token : String} (h : isWord token = true) :
    token.toList ≠ [] ∧ ∀ c ∈ token.toList, c ∉ ['<', '<'] := by
  obtain ⟨c, tail, htoken, hc, htail⟩ := Macro.exists_of_isWord h
  rw [htoken]
  refine ⟨List.cons_ne_nil c tail, List.forall_mem_cons.mpr ⟨?_, fun d hd hmem => ?_⟩⟩
  · simpa using Text.ne_of_isWordStart hc (d := '<') (by decide)
  · obtain rfl : d = '<' := by simpa using hmem
    exact absurd (htail '<' hd) (by decide)

/-- No shift goes across a name. -/
theorem hasShift_append_map (r : Renaming) (front : List Char) (tokens : List String) :
    hasShift (front ++ joined (tokens.map r.apply)) = hasShift (front ++ joined tokens) := by
  induction tokens generalizing front with
  | nil => rfl
  | cons token rest ih =>
    rw [List.map_cons, joined_cons, joined_cons]
    cases hword : isWord token with
    | true =>
      obtain ⟨hne, hmark⟩ := lt_notMem_of_isWord hword
      obtain ⟨hne', hmark'⟩ := lt_notMem_of_isWord (r.isWord_apply hword)
      have hrest := ih []
      rw [List.nil_append, List.nil_append] at hrest
      unfold hasShift at hrest ⊢
      rw [Text.contains_append_of_disjoint (by simp) hne hmark,
        Text.contains_append_of_disjoint (by simp) hne' hmark', hrest]
    | false => rw [r.apply_other hword, ← List.append_assoc, ← List.append_assoc, ih]

theorem hasShift_map (r : Renaming) (tokens : List String) :
    hasShift (joined (tokens.map r.apply)) = hasShift (joined tokens) :=
  hasShift_append_map r [] tokens

/-! The first name -/

theorem exists_first_name {tokens : List String} (h : ∃ token ∈ tokens, isWord token = true) :
    ∃ front name back, tokens = front ++ name :: back ∧ isWord name = true ∧
      ∀ token ∈ front, isWord token = false := by
  obtain ⟨name, hfind⟩ := Option.isSome_iff_exists.mp (List.find?_isSome.mpr h)
  obtain ⟨hname, front, back, htokens, hfront⟩ := List.find?_eq_some_iff_append.mp hfind
  exact ⟨front, name, back, htokens, hname, fun token htoken => by simpa using hfront token htoken⟩

theorem isHex_append_cons {c : Char} (hc : Text.isWordStart c = true) {front : List Char}
    (hfront : front ≠ ['0']) (rest : List Char) : isHex (front ++ c :: rest) = isHex front := by
  match front, hfront with
  | [], _ =>
    have hzero : '0' ≠ c := (Text.ne_of_isWordStart hc (by decide)).symm
    simp [isHex, List.isPrefixOf, hzero]
  | [d], hfront =>
    have hzero : '0' ≠ d := by
      rintro rfl
      exact hfront rfl
    simp [isHex, List.isPrefixOf, hzero]
  | d :: e :: front, _ => exact isHex_append_of_length_le (by simp) _

/-- The text of tokens has one character if they are one token of it. -/
theorem joined_eq_single_iff {tokens : List String}
    (htokens : ∀ token ∈ tokens, IsToken token.toList) (c : Char) :
    joined tokens = [c] ↔ tokens = [String.ofList [c]] := by
  constructor
  · intro h
    match tokens, htokens, h with
    | [], _, h => cases h
    | [token], _, h =>
      rw [joined_singleton] at h
      rw [← h, String.ofList_toList]
    | token :: next :: rest, htokens, h =>
      have hlength := congrArg List.length h
      have hfirst := List.length_pos_iff.mpr (Macro.ne_nil_of_isToken (htokens token (by simp)))
      have hsecond := List.length_pos_iff.mpr (Macro.ne_nil_of_isToken (htokens next (by simp)))
      rw [joined_cons, joined_cons, List.length_append, List.length_append] at hlength
      simp only [List.length_singleton] at hlength
      omega
  · rintro rfl
    simp [joined]

section FirstName

variable {front back : List String} {name : String}

/-- A name in a text, as characters. -/
theorem exists_joined (front back : List String) (hname : isWord name = true) :
    ∃ c tail, Text.isWordStart c = true ∧ (∀ d ∈ tail, Text.isWordPart d = true) ∧
      joined (front ++ name :: back) = joined front ++ c :: (tail ++ joined back) := by
  obtain ⟨c, tail, hlist, hc, htail⟩ := Macro.exists_of_isWord hname
  refine ⟨c, tail, hc, htail, ?_⟩
  rw [joined_append, joined_cons, hlist, List.cons_append]

theorem isNumeric_joined (hname : isWord name = true) :
    isNumeric (joined (front ++ name :: back)) = isNumeric (joined front) := by
  obtain ⟨c, tail, hc, -, hjoined⟩ := exists_joined front back hname
  rw [hjoined, isNumeric_append_cons hc]

theorem isHex_joined (hname : isWord name = true)
    (hfront : ∀ token ∈ front, IsToken token.toList) (hzero : front ≠ ["0"]) :
    isHex (joined (front ++ name :: back)) = isHex (joined front) := by
  obtain ⟨c, tail, hc, -, hjoined⟩ := exists_joined front back hname
  rw [hjoined, isHex_append_cons hc (mt (joined_eq_single_iff hfront '0').mp hzero)]

/-- Where no letter is there is no name. -/
theorem isWord_eq_false_of_notMem {tokens : List String}
    (h : ∀ c, Text.isWordStart c = true → c ∉ joined tokens) :
    ∀ token ∈ tokens, isWord token = false := by
  intro token htoken
  rw [← Bool.not_eq_true]
  intro hword
  obtain ⟨c, tail, hlist, hc, -⟩ := Macro.exists_of_isWord hword
  refine h c hc (List.mem_flatMap_of_mem htoken ?_)
  rw [hlist]
  exact List.mem_cons_self

/-- A name in a fraction with a point is the mark of its exponent, and maybe has digits of it. -/
theorem isExponent_of_isFraction (hname : isWord name = true) (hback : joined back ≠ [])
    (hfraction : Text.isFraction (joined (front ++ name :: back)) = true)
    (hpoint : '.' ∈ joined (front ++ name :: back)) :
    Text.IsPointed (joined front) ∧ (Text.digits? (Text.dropSign (joined back))).isSome = true := by
  obtain ⟨c, tail, hc, htail, hjoined⟩ := exists_joined front back hname
  rw [hjoined] at hfraction hpoint
  obtain ⟨hpointed, -, hdigits⟩ :=
    (Text.isFraction_append_letter_iff hc _ _).mp ⟨hfraction, hpoint⟩
  refine ⟨hpointed, ?_⟩
  cases tail with
  | nil => exact hdigits
  | cons d tail =>
    have hdrop : Text.dropSign (d :: tail ++ joined back) = d :: tail ++ joined back := by
      have hd := htail d List.mem_cons_self
      unfold Text.dropSign
      split
      next heq =>
        obtain ⟨rfl, -⟩ := List.cons.inj heq
        exact absurd hd (by decide)
      next heq =>
        obtain ⟨rfl, -⟩ := List.cons.inj heq
        exact absurd hd (by decide)
      next => rfl
    obtain ⟨value, hvalue⟩ := Option.isSome_iff_exists.mp hdigits
    rw [hdrop] at hvalue
    have hall := List.all_eq_true.mp (Text.digits?_eq_some hvalue).2
    exact Text.isSome_digits?_dropSign hback fun e he => hall e (List.mem_append_right _ he)

/-- A fraction with a point in a renamed text has the mark of its exponent in a name. -/
theorem readsName_of_isFraction (r : Renaming) (hname : isWord name = true)
    (hfront : ∀ token ∈ front, isWord token = false) (hback : joined (back.map r.apply) ≠ [])
    (hfraction : Text.isFraction (joined ((front ++ name :: back).map r.apply)) = true)
    (hpoint : '.' ∈ joined ((front ++ name :: back).map r.apply)) :
    ReadsName (front ++ name :: back) := by
  rw [List.map_append, List.map_cons, Renaming.map_of_forall hfront] at hfraction hpoint
  obtain ⟨hpointed, hdigits⟩ :=
    isExponent_of_isFraction (r.isWord_apply hname) hback hfraction hpoint
  have hnames : ∀ token ∈ back, isWord token = false := by
    intro token htoken
    rw [← Bool.not_eq_true]
    intro hword
    have hnone := isWord_eq_false_of_notMem (fun c => Text.notMem_of_isSome_digits? hdigits) _
      (List.mem_map_of_mem htoken)
    rw [r.isWord_apply hword] at hnone
    cases hnone
  rw [Renaming.map_of_forall hnames] at hdigits
  exact ReadsName.exponent rfl hname hpointed hdigits

end FirstName

/-! Names that are not read -/

theorem isNumeric_map (r : Renaming) (tokens : List String) :
    isNumeric (joined (tokens.map r.apply)) = isNumeric (joined tokens) := by
  by_cases hword : ∃ token ∈ tokens, isWord token = true
  · obtain ⟨front, name, back, rfl, hname, hfront⟩ := exists_first_name hword
    rw [List.map_append, List.map_cons, Renaming.map_of_forall hfront,
      isNumeric_joined (r.isWord_apply hname), isNumeric_joined hname]
  · rw [Renaming.map_of_forall (by simpa using hword)]

theorem isWord_getLast?_eq_false {tokens : List String} (hreads : ¬ ReadsName tokens) :
    ∀ token ∈ tokens.getLast?, isWord token = false := by
  intro token htoken
  rw [← Bool.not_eq_true]
  intro hword
  obtain ⟨front, rfl⟩ := List.getLast?_eq_some_iff.mp htoken
  exact hreads (ReadsName.suffix rfl hword)

section NotRead

variable (r : Renaming) {front back : List String} {name : String}
  (htokens : ∀ token ∈ front ++ name :: back, IsToken token.toList)
  (hname : isWord name = true) (hfront : ∀ token ∈ front, isWord token = false)
  (hreads : ¬ ReadsName (front ++ name :: back))
include htokens hname hfront hreads

theorem isFraction_map_eq_false :
    ((joined ((front ++ name :: back).map r.apply)).contains '.' &&
      Text.isFraction (joined ((front ++ name :: back).map r.apply))) = false := by
  rw [← Bool.not_eq_true, Bool.and_eq_true, List.contains_iff_mem]
  rintro ⟨hpoint, hfraction⟩
  have hlast := isWord_getLast?_eq_false hreads
  have hback : joined (back.map r.apply) ≠ [] := by
    rcases List.eq_nil_or_concat' back with rfl | ⟨others, last, rfl⟩
    · rw [hlast name (by simp)] at hname
      cases hname
    · have hgetLast : (front ++ name :: (others ++ [last])).getLast? = some last := by
        rw [← List.cons_append, ← List.append_assoc, List.getLast?_concat]
      have hkept := r.apply_other (hlast last hgetLast)
      exact Macro.joined_ne_nil (List.mem_map.mpr ⟨last, by simp, hkept⟩) (htokens last (by simp))
  exact hreads (readsName_of_isFraction r hname hfront hback hfraction hpoint)

theorem isHex_map
    (hending : kindOfEnding? (Text.lowerAscii (joined (front ++ name :: back))) = none) :
    isHex (joined ((front ++ name :: back).map r.apply)) = isHex (joined front) := by
  have hzero : front ≠ ["0"] := by
    rintro rfl
    exact hreads (ReadsName.base rfl hname hending)
  have hkept : ∀ token ∈ front, IsToken token.toList := fun token htoken =>
    htokens token (List.mem_append_left _ htoken)
  rw [List.map_append, List.map_cons, Renaming.map_of_forall hfront]
  exact isHex_joined (r.isWord_apply hname) hkept hzero

/-- The type of a number with names in it is that of its ending, or that of the tokens in front of
the first name, or of a shift. -/
theorem kindOfChars?_map_of_isNumeric
    (hnumeric : isNumeric (joined (front ++ name :: back)) = true) :
    kindOfChars? (joined ((front ++ name :: back).map r.apply)) =
      match kindOfEnding? (Text.lowerAscii (joined (front ++ name :: back))) with
      | some kind => some kind
      | none =>
        if Text.endsWith ['f'] (Text.lowerAscii (joined (front ++ name :: back))) &&
            !isHex (joined front) then some .float
        else if isHex (joined front) then some .uint
        else if hasShift (joined (front ++ name :: back)) then some .int
        else none := by
  have hmap : (front ++ name :: back).map r.apply = front ++ r.apply name :: back.map r.apply := by
    rw [List.map_append, List.map_cons, Renaming.map_of_forall hfront]
  have hword := r.isWord_apply hname
  obtain ⟨c, tail, hc, -, hjoined⟩ := exists_joined front (back.map r.apply) hword
  have hmem : c ∈ joined ((front ++ name :: back).map r.apply) := by
    rw [hmap, hjoined]
    exact List.mem_append_right _ List.mem_cons_self
  have hnumber := (isNumeric_map r (front ++ name :: back)).trans hnumeric
  have halike := endsAlike_map r htokens (isWord_getLast?_eq_false hreads)
  cases hending : kindOfEnding? (Text.lowerAscii (joined (front ++ name :: back))) with
  | some kind =>
    exact kindOfChars?_of_ending hnumber hc hmem (halike.kindOfEnding?_eq.trans hending)
  | none =>
    rw [kindOfChars?_of_mem hnumber hc hmem, halike.endsWith_eq, halike.kindOfEnding?_eq, hending,
      Option.none_or, kindOfNoSuffix?, isHex_map r htokens hname hfront hreads hending,
      isFraction_map_eq_false r htokens hname hfront hreads, hasShift_map,
      if_neg Bool.false_ne_true]

end NotRead

/-- The type is the same under other names, if none is read as a part of a number. -/
theorem kindOfChars?_map (r : Renaming) {tokens : List String}
    (htokens : ∀ token ∈ tokens, IsToken token.toList)
    (hreads : ¬ (isNumeric (joined tokens) = true ∧ ReadsName tokens)) :
    kindOfChars? (joined (tokens.map r.apply)) = kindOfChars? (joined tokens) := by
  cases hnumeric : isNumeric (joined tokens) with
  | false =>
    unfold kindOfChars?
    simp only [isNumeric_map, hnumeric, hasShift_map, Bool.not_false, if_true]
  | true =>
    by_cases hword : ∃ token ∈ tokens, isWord token = true
    · obtain ⟨front, name, back, rfl, hname, hfront⟩ := exists_first_name hword
      have hnot : ¬ ReadsName (front ++ name :: back) := fun h => hreads ⟨hnumeric, h⟩
      have hsame := kindOfChars?_map_of_isNumeric Renaming.refl htokens hname hfront hnot hnumeric
      rw [Renaming.map_refl] at hsame
      rw [hsame]
      exact kindOfChars?_map_of_isNumeric r htokens hname hfront hnot hnumeric
    · rw [Renaming.map_of_forall (by simpa using hword)]

end HeaderInterop.Literal
