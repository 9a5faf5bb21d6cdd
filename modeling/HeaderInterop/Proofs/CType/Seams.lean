import Mathlib.Data.List.TakeWhile
import HeaderInterop.Proofs.CType.Lexemes

/-!
Texts put together. The tokens of a text with another one behind it are those of the two, unless
something reads on over the seam: a word or a number that goes on there, or the phrase of an unnamed
type that only the second text completes. What is said of the tokenizer's steps here is one equation
for each form that a token's text can have.
-/

namespace HeaderInterop

section Span

variable {p : Char → Bool} {c : Char} {rest back : List Char}

/-- A run of characters does not change with text behind it that does not go on with the run. -/
theorem span_append (h : back.head?.any p = false ∨ rest.dropWhile p ≠ []) :
    (rest ++ back).takeWhile p = rest.takeWhile p ∧
      (rest ++ back).dropWhile p = rest.dropWhile p ++ back := by
  induction rest with
  | nil =>
    have hhead : back.head?.any p = false := h.resolve_right fun hne => hne rfl
    cases back with
    | nil => simp
    | cons d back =>
      have hd : p d = false := by simpa using hhead
      simp [hd]
  | cons d rest ih =>
    cases hd : p d with
    | false => simp [hd]
    | true => simpa [hd] using ih (by simpa [hd] using h)

theorem any_getLast?_of_dropWhile (hc : p c = true) (h : rest.dropWhile p = []) :
    (c :: rest).getLast?.any p = true := by
  have hall : ∀ d ∈ c :: rest, p d = true :=
    List.forall_mem_cons.mpr ⟨hc, List.dropWhile_eq_nil_iff.mp h⟩
  rw [List.getLast?_eq_some_getLast (List.cons_ne_nil c rest)]
  exact hall _ (List.getLast_mem _)

end Span

namespace CType

/-! The steps of the tokenizer. -/

section Steps

variable {c : Char} {rest : List Char}

theorem tokenize_blank (hc : c = ' ' ∨ c = '\t') : tokenize (c :: rest) = tokenize rest := by
  rw [tokenize, if_pos hc]

theorem tokenize_anonymous {inside after : List Char} (hopens : opensAnonymous rest = true)
    (hsplit : splitGroup 0 rest = some (inside, after)) :
    tokenize ('(' :: rest) = (tokenize after).map (.anonymous (String.ofList inside) :: ·) := by
  rw [tokenize, if_neg (by decide), if_pos rfl, if_pos hopens]
  split
  next h => simp [hsplit] at h
  next h =>
    obtain ⟨rfl, rfl⟩ : inside = _ ∧ after = _ := by simpa [hsplit] using h
    rfl

theorem tokenize_lparen (hopens : opensAnonymous rest = false) :
    tokenize ('(' :: rest) = (tokenize rest).map (.lparen :: ·) := by
  rw [tokenize, if_neg (by decide), if_pos rfl, if_neg (by simp [hopens])]

theorem tokenize_ellipsis :
    tokenize ('.' :: '.' :: '.' :: rest) = (tokenize rest).map (.ellipsis :: ·) := by
  rw [tokenize, if_neg (by decide), if_neg (by decide), if_pos (by simp [List.isPrefixOf])]
  rfl

theorem isDigit_ordinary (hc : c.isDigit = true) :
    ¬ (c = ' ' ∨ c = '\t') ∧ c ≠ '(' ∧ '.' ≠ c := by
  refine ⟨?_, ?_, ?_⟩
  · rintro (rfl | rfl) <;> simp at hc
  · rintro rfl
    simp at hc
  · rintro rfl
    simp at hc

theorem tokenize_digits {value : Nat} (hc : c.isDigit = true)
    (hvalue : Text.unsigned? Text.maxUInt64 (c :: rest.takeWhile Char.isDigit) = some value) :
    tokenize (c :: rest) = (tokenize (rest.dropWhile Char.isDigit)).map (.number value :: ·) := by
  obtain ⟨hblank, hparen, hdot⟩ := isDigit_ordinary hc
  rw [tokenize]
  simp [hblank, hparen, hdot, hc, hvalue, List.isPrefixOf]

/-- What is read behind the word of an attribute. -/
def afterAttribute : List Char → Except Fault (List Token)
  | '(' :: body =>
    match splitGroup 0 body with
    | none => .error .unterminatedAttribute
    | some parts => tokenize parts.2
  | _ => .error .malformedAttribute

section Word

variable (hstart : Text.isNameStart c = true)
include hstart

theorem isNameStart_ordinary :
    ¬ (c = ' ' ∨ c = '\t') ∧ c ≠ '(' ∧ ¬ "...".toList.isPrefixOf (c :: rest) = true ∧
      ¬ c.isDigit = true := by
  refine ⟨?_, ?_, ?_, by simp [Text.isDigit_eq_false_of_isNameStart hstart]⟩
  · rintro (rfl | rfl) <;> simp [Text.isNameStart] at hstart
  · rintro rfl
    simp [Text.isNameStart] at hstart
  · intro hdots
    obtain rfl : '.' = c := by simp [List.isPrefixOf] at hdots; exact hdots.1
    simp [Text.isNameStart] at hstart

theorem tokenize_word
    (hword : String.ofList (c :: rest.takeWhile Text.isNamePart) ≠ attributeWord) :
    tokenize (c :: rest) =
      (tokenize (rest.dropWhile Text.isNamePart)).map
        (.ident (String.ofList (c :: rest.takeWhile Text.isNamePart)) :: ·) := by
  obtain ⟨hblank, hparen, hdots, hdigit⟩ := @isNameStart_ordinary c rest hstart
  rw [tokenize, if_neg hblank, if_neg hparen, if_neg hdots, if_neg hdigit, if_pos hstart]
  exact if_neg hword

theorem tokenize_attributeWord
    (hword : String.ofList (c :: rest.takeWhile Text.isNamePart) = attributeWord) :
    tokenize (c :: rest) = afterAttribute (Text.trimStart (rest.dropWhile Text.isNamePart)) := by
  obtain ⟨hblank, hparen, hdots, hdigit⟩ := @isNameStart_ordinary c rest hstart
  rw [tokenize, if_neg hblank, if_neg hparen, if_neg hdots, if_neg hdigit, if_pos hstart]
  refine (if_pos hword).trans ?_
  split
  next body hbody =>
    refine Eq.trans ?_ (congrArg afterAttribute hbody).symm
    split
    next hnone => rw [afterAttribute, hnone]
    next inside after hsome =>
      change tokenize after = _
      rw [afterAttribute, hsome]
  next hnone =>
    unfold afterAttribute
    split
    next body hbody => exact absurd hbody (hnone body)
    next => rfl

theorem tokenize_attribute {body inside after : List Char}
    (hword : String.ofList (c :: rest.takeWhile Text.isNamePart) = attributeWord)
    (hbody : Text.trimStart (rest.dropWhile Text.isNamePart) = '(' :: body)
    (hsplit : splitGroup 0 body = some (inside, after)) :
    tokenize (c :: rest) = tokenize after := by
  rw [tokenize_attributeWord hstart hword, hbody, afterAttribute, hsplit]

end Word

theorem tokenize_punctuation {token : Token} (h : punctuation? c = some token) :
    tokenize (c :: rest) = (tokenize rest).map (token :: ·) := by
  unfold punctuation? at h
  split at h
  all_goals
    simp_all [tokenize, punctuation?, Text.isNameStart, List.isPrefixOf]

end Steps

/-! The seam. -/

/-- How many groups are open behind the character. -/
def depthBehind (depth : Nat) (c : Char) : Nat :=
  if c = '(' then depth + 1 else if c = ')' then depth - 1 else depth

theorem splitGroup_cons (depth : Nat) (c : Char) (rest : List Char) :
    splitGroup depth (c :: rest) =
      if c = ')' ∧ depth = 0 then some ([], rest)
      else (splitGroup (depthBehind depth c) rest).map (Prod.map (c :: ·) id) := by
  rw [splitGroup.eq_def]
  by_cases hopen : c = '('
  · subst hopen
    simp [depthBehind]
    rfl
  · by_cases hclose : c = ')'
    · subst hclose
      cases depth <;> simp [depthBehind]
      rfl
    · simp [depthBehind, hopen, hclose]
      rfl

theorem splitGroup_append_right {depth : Nat} {text inside after : List Char}
    (h : splitGroup depth text = some (inside, after)) (back : List Char) :
    splitGroup depth (text ++ back) = some (inside, after ++ back) := by
  induction text generalizing depth inside after with
  | nil => simp [splitGroup] at h
  | cons c rest ih =>
    rw [List.cons_append, splitGroup_cons]
    rw [splitGroup_cons] at h
    split
    next hclose =>
      rw [if_pos hclose] at h
      cases h
      rfl
    next hclose =>
      rw [if_neg hclose] at h
      obtain ⟨⟨i, a⟩, hs, hpair⟩ := Option.map_eq_some_iff.mp h
      cases hpair
      rw [ih hs]
      rfl

/-- Nothing reads on over the seam of the two texts: no word or number goes on there, and no
parenthesis of the first opens the phrase of an unnamed type only with the second. -/
structure IsSeam (front back : List Char) : Prop where
  words : front.getLast?.any Text.isNamePart = true → back.head?.any Text.isNamePart = false
  phrases : ∀ rest, '(' :: rest <:+ front → opensAnonymous (rest ++ back) = opensAnonymous rest

theorem IsSeam.of_isSuffix {front rest back : List Char} (h : IsSeam front back)
    (hrest : rest <:+ front) : IsSeam rest back where
  words := by
    intro hlast
    obtain ⟨start, rfl⟩ := hrest
    cases hrest : rest.getLast? with
    | none => simp [hrest] at hlast
    | some c =>
      rw [hrest] at hlast
      refine h.words ?_
      rwa [List.getLast?_append, hrest]
  phrases := fun inside hinside => h.phrases inside (hinside.trans hrest)

/-- Without a parenthesis in the first text, only a word or a number can go on. -/
theorem IsSeam.of_notMem {front back : List Char} (hfront : '(' ∉ front)
    (hback : back.head?.any Text.isNamePart = false) : IsSeam front back where
  words := fun _ => hback
  phrases := fun _ hrest => absurd (hrest.subset (List.mem_cons_self ..)) hfront

section Ends

variable {front word back : List Char}

/-- A word with a blank behind it does not begin in one text and end in the next where the first
text ends in no word. -/
theorem isPrefixOf_append_of_ends (hword : word.all Text.isNamePart = true) (hne : front ≠ [])
    (hfront : front.getLast?.any Text.isNamePart = false) :
    (word ++ [' ']).isPrefixOf (front ++ back) = (word ++ [' ']).isPrefixOf front := by
  rw [Bool.eq_iff_iff, List.isPrefixOf_iff_prefix, List.isPrefixOf_iff_prefix]
  refine ⟨fun h => ?_, fun h => h.trans (List.prefix_append _ _)⟩
  rcases List.prefix_or_prefix_of_prefix h (List.prefix_append front back) with hshort | hlong
  · exact hshort
  rcases List.prefix_concat_iff.mp hlong with rfl | hinside
  · exact List.prefix_rfl
  · have hlast : Text.isNamePart (front.getLast hne) = true :=
      List.all_eq_true.mp hword _ (hinside.subset (List.getLast_mem hne))
    simp [List.getLast?_eq_some_getLast hne, hlast] at hfront

theorem opensAnonymous_append_of_ends (hne : front ≠ [])
    (hfront : front.getLast?.any Text.isNamePart = false) :
    opensAnonymous (front ++ back) = opensAnonymous front := by
  have hunnamed : ("unnamed".toList.all Text.isNamePart) = true := by decide
  have hanonymous : ("anonymous".toList.all Text.isNamePart) = true := by decide
  exact congrArg₂ (· || ·) (isPrefixOf_append_of_ends hunnamed hne hfront)
    (isPrefixOf_append_of_ends hanonymous hne hfront)

/-- Behind a text that ends in no word, a text is apart unless it goes on with the phrase of an
unnamed type, which an opening parenthesis may be waiting for. -/
theorem IsSeam.of_ends (hfront : front.getLast?.any Text.isNamePart = false)
    (hback : opensAnonymous back = false) : IsSeam front back where
  words := fun h => by simp [hfront] at h
  phrases := by
    rintro rest ⟨start, rfl⟩
    by_cases hrest : rest = []
    · subst hrest
      exact hback
    · refine opensAnonymous_append_of_ends hrest ?_
      have hlast := List.getLast?_eq_some_getLast hrest
      simpa [List.getLast?_append, List.getLast?_cons, hlast] using hfront

end Ends

theorem any_of_any {p q : Char → Bool} (hpq : ∀ c, p c = true → q c = true) {found : Option Char}
    (h : found.any p = true) : found.any q = true := by
  cases found with
  | none => simp at h
  | some c => exact hpq c h

/-- A run of characters that a name may have ends at the seam. -/
theorem IsSeam.span {p : Char → Bool} {c : Char} {rest back : List Char}
    (h : IsSeam (c :: rest) back) (hp : ∀ d, p d = true → Text.isNamePart d = true)
    (hc : p c = true) :
    (rest ++ back).takeWhile p = rest.takeWhile p ∧
      (rest ++ back).dropWhile p = rest.dropWhile p ++ back := by
  refine span_append ?_
  by_cases hrest : rest.dropWhile p = []
  · have hhead := h.words (any_of_any hp (any_getLast?_of_dropWhile hc hrest))
    rw [← Bool.not_eq_true] at hhead ⊢
    exact Or.inl fun hback => hhead (any_of_any hp hback)
  · exact Or.inr hrest

theorem trimStart_append {front body : List Char} {c : Char}
    (h : Text.trimStart front = c :: body) (back : List Char) :
    Text.trimStart (front ++ back) = c :: (body ++ back) := by
  have hne : front.dropWhile Text.isBlank ≠ [] := by
    rw [Text.trimStart] at h
    simp [h]
  rw [Text.trimStart, (span_append (Or.inr hne)).2]
  exact congrArg (· ++ back) h

/-- A token in front of tokens that are the same with a text behind theirs. -/
theorem map_cons_of_map_append {token : Token} {result whole : Except Fault (List Token)}
    {more : Except Fault (List Token)} {tokens : List Token}
    (h : result.map (token :: ·) = .ok tokens)
    (hwhole : ∀ {others}, result = .ok others → whole = more.map (others ++ ·)) :
    whole.map (token :: ·) = more.map (tokens ++ ·) := by
  obtain ⟨others, hothers, rfl⟩ := except_map_eq_ok.mp h
  rw [hwhole hothers]
  cases more <;> rfl

/-- The tokens of a text with another one behind it are those of the two. -/
theorem tokenize_append {front back : List Char} {tokens : List Token}
    (h : tokenize front = .ok tokens) (hseam : IsSeam front back) :
    tokenize (front ++ back) = (tokenize back).map (tokens ++ ·) := by
  have hdigit : ∀ d : Char, d.isDigit = true → Text.isNamePart d = true := by
    intro d hd
    simp [Text.isNamePart, Char.isAlphanum, hd]
  fun_induction tokenize front generalizing tokens with
  | case1 =>
    obtain rfl : [] = tokens := by simpa using h
    rw [List.nil_append]
    cases tokenize back <;> rfl
  | case2 c rest hblank ih =>
    rw [List.cons_append, tokenize_blank hblank]
    exact ih h (hseam.of_isSuffix (List.suffix_cons _ _))
  | case3 => simp at h
  | case4 rest hopens inside after hsplit _ _ ih =>
    have hafter : after <:+ '(' :: rest := by
      rw [splitGroup_eq_some hsplit]
      exact ⟨'(' :: inside ++ [')'], by simp⟩
    have hopens' : opensAnonymous (rest ++ back) = true := by
      rw [hseam.phrases rest List.suffix_rfl, hopens]
    rw [List.cons_append, tokenize_anonymous hopens' (splitGroup_append_right hsplit back)]
    exact map_cons_of_map_append h fun hothers => ih hothers (hseam.of_isSuffix hafter)
  | case5 rest hopens _ ih =>
    have hopens' : opensAnonymous (rest ++ back) = false := by
      rw [hseam.phrases rest List.suffix_rfl]
      simpa using hopens
    rw [List.cons_append, tokenize_lparen hopens']
    exact map_cons_of_map_append h fun hothers =>
      ih hothers (hseam.of_isSuffix (List.suffix_cons _ _))
  | case6 c rest _ _ hdots ih =>
    obtain ⟨after, hafter⟩ := List.isPrefixOf_iff_prefix.mp hdots
    obtain ⟨rfl, rfl⟩ : '.' = c ∧ '.' :: '.' :: after = rest := by simpa using hafter
    rw [List.cons_append, List.cons_append, List.cons_append, tokenize_ellipsis]
    exact map_cons_of_map_append h fun hothers =>
      ih hothers (hseam.of_isSuffix ⟨['.', '.', '.'], rfl⟩)
  | case7 => simp at h
  | case8 c rest _ _ _ hc value hvalue _ ih =>
    obtain ⟨htake, hdrop⟩ := hseam.span hdigit hc
    have hsuffix := (List.dropWhile_suffix Char.isDigit).trans (List.suffix_cons c rest)
    rw [List.cons_append, tokenize_digits hc (by rwa [htake]), hdrop]
    exact map_cons_of_map_append h fun hothers => ih hothers (hseam.of_isSuffix hsuffix)
  | case9 => simp at h
  | case10 c rest =>
    rename_i hstart _ _ hword body hbody inside after hsplit _ _ _ ih
    obtain ⟨htake, hdrop⟩ := hseam.span (fun _ => id) (Text.isNamePart_of_isNameStart hstart)
    have hafter : after <:+ c :: rest := by
      have hbehind : after <:+ body := by
        rw [splitGroup_eq_some hsplit]
        exact ⟨inside ++ [')'], by simp⟩
      have hinside : '(' :: body <:+ rest.dropWhile Text.isNamePart :=
        hbody ▸ List.dropWhile_suffix Text.isBlank
      exact ((hbehind.trans (List.suffix_cons _ _)).trans hinside).trans
        ((List.dropWhile_suffix _).trans (List.suffix_cons _ _))
    have hbody' : Text.trimStart ((rest ++ back).dropWhile Text.isNamePart) =
        '(' :: (body ++ back) := by
      rw [hdrop]
      exact trimStart_append hbody back
    rw [List.cons_append, tokenize_attribute hstart (by rwa [htake]) hbody'
      (splitGroup_append_right hsplit back)]
    exact ih h (hseam.of_isSuffix hafter)
  | case11 => simp at h
  | case12 c rest =>
    rename_i hstart _ _ hword ih
    obtain ⟨htake, hdrop⟩ := hseam.span (fun _ => id) (Text.isNamePart_of_isNameStart hstart)
    have hsuffix := (List.dropWhile_suffix Text.isNamePart).trans (List.suffix_cons c rest)
    rw [List.cons_append, tokenize_word hstart (by rwa [htake]), htake, hdrop]
    exact map_cons_of_map_append h fun hothers => ih hothers (hseam.of_isSuffix hsuffix)
  | case13 c rest _ _ _ _ _ token htoken ih =>
    rw [List.cons_append, tokenize_punctuation htoken]
    exact map_cons_of_map_append h fun hothers =>
      ih hothers (hseam.of_isSuffix (List.suffix_cons _ _))
  | case14 => simp at h

end CType

end HeaderInterop
