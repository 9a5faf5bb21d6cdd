import Mathlib.Data.List.Infix
import HeaderInterop.Proofs.CType.SpecifierOrder

/-!
Vector types. The compiler spells one as an attribute in front of the type of an element, and an
attribute gives no token, so that the text is read as the element. The parentheses inside the
attribute close each other, those of the element's own text among them, whatever attributes that
text has itself; this is what the scan for the end of the attribute needs.
-/

namespace HeaderInterop.CType

/-! Texts whose parentheses close each other. -/

/-- The scan for the end of a group goes over the text, in any group. -/
def IsBalanced (text : List Char) : Prop :=
  ∀ depth rest, splitGroup depth (text ++ rest) =
    (splitGroup depth rest).map (Prod.map (text ++ ·) id)

theorem IsBalanced.nil : IsBalanced [] := by
  intro depth rest
  rw [List.nil_append]
  cases splitGroup depth rest <;> rfl

theorem IsBalanced.append {text more : List Char} (h : IsBalanced text) (hmore : IsBalanced more) :
    IsBalanced (text ++ more) := by
  intro depth rest
  rw [List.append_assoc, h, hmore]
  cases splitGroup depth rest <;> simp [Prod.map]

theorem IsBalanced.char {c : Char} (hopen : c ≠ '(') (hclose : c ≠ ')') : IsBalanced [c] := by
  intro depth rest
  rw [List.singleton_append, splitGroup_cons, if_neg (by simp [hclose]), depthBehind,
    if_neg hopen, if_neg hclose]
  rfl

theorem IsBalanced.of_notMem {text : List Char} (hopen : '(' ∉ text) (hclose : ')' ∉ text) :
    IsBalanced text := by
  induction text with
  | nil => exact .nil
  | cons c rest ih =>
    rw [List.mem_cons, not_or] at hopen hclose
    exact (IsBalanced.char (Ne.symm hopen.1) (Ne.symm hclose.1)).append (ih hopen.2 hclose.2)

theorem IsBalanced.group {inside : List Char} (h : IsBalanced inside) :
    IsBalanced ('(' :: (inside ++ [')'])) := by
  intro depth rest
  have hopen : splitGroup depth ('(' :: (inside ++ ')' :: rest)) =
      (splitGroup (depth + 1) (inside ++ ')' :: rest)).map (Prod.map ('(' :: ·) id) := by
    rw [splitGroup_cons, if_neg (by simp), depthBehind, if_pos rfl]
  have hclose : splitGroup (depth + 1) (')' :: rest) =
      (splitGroup depth rest).map (Prod.map (')' :: ·) id) := by
    rw [splitGroup_cons, if_neg (by simp), depthBehind, if_neg (by simp), if_pos rfl]
    rfl
  rw [List.cons_append, List.append_assoc, List.singleton_append, hopen, h, hclose]
  cases splitGroup depth rest <;> simp [Prod.map]

/-- What the scan finds in front of the end of a group has one closing parenthesis too many for
each group that was open. -/
theorem splitGroup_inside {opened : Nat} {text inside after : List Char}
    (h : splitGroup opened text = some (inside, after)) (depth : Nat) (rest : List Char) :
    splitGroup (depth + opened) (inside ++ rest) =
      (splitGroup depth rest).map (Prod.map (inside ++ ·) id) := by
  induction text generalizing opened inside with
  | nil => simp [splitGroup] at h
  | cons c text ih =>
    rw [splitGroup_cons] at h
    split at h
    next hclose =>
      obtain ⟨rfl, rfl⟩ := hclose
      cases h
      exact IsBalanced.nil depth rest
    next hclose =>
      obtain ⟨⟨inner, _⟩, hinner, hpair⟩ := Option.map_eq_some_iff.mp h
      cases hpair
      have hopened : c = ')' → opened ≠ 0 := fun hc hnone => hclose ⟨hc, hnone⟩
      have hdepth : depthBehind (depth + opened) c = depth + depthBehind opened c := by
        unfold depthBehind
        split
        · rfl
        · split
          next hc => exact Nat.add_sub_assoc (Nat.one_le_iff_ne_zero.mpr (hopened hc)) depth
          next => rfl
      have hstays : ¬ (c = ')' ∧ depth + opened = 0) := fun hend => hclose ⟨hend.1, by omega⟩
      have hnext := ih hinner
      rw [← hdepth] at hnext
      change splitGroup (depth + opened) (c :: (inner ++ rest)) = _
      rw [splitGroup_cons, if_neg hstays, hnext]
      cases splitGroup depth rest <;> rfl

theorem IsBalanced.inside {text inside after : List Char}
    (h : splitGroup 0 text = some (inside, after)) : IsBalanced inside :=
  splitGroup_inside h

theorem IsBalanced.of_dropWhile {p : Char → Bool} (hopen : p '(' = false) (hclose : p ')' = false)
    {text : List Char} (h : IsBalanced (text.dropWhile p)) : IsBalanced text := by
  rw [← List.takeWhile_append_dropWhile (p := p) (l := text)]
  have hnone : ∀ c, p c = false → c ∉ text.takeWhile p := fun c hc hmem =>
    absurd (List.mem_takeWhile_imp hmem) (by simp [hc])
  exact (IsBalanced.of_notMem (hnone _ hopen) (hnone _ hclose)).append h

def Token.isParenthesis : Token → Bool
  | .lparen | .rparen => true
  | _ => false

private theorem isBalanced_of_map {token : Token} {result : Except Fault (List Token)}
    {tokens : List Token} {text rest : List Char} (h : result.map (token :: ·) = .ok tokens)
    (hnone : tokens.any Token.isParenthesis = false)
    (hrest : ∀ {others}, result = .ok others → others.any Token.isParenthesis = false →
      IsBalanced rest)
    (htext : token.isParenthesis = false → IsBalanced rest → IsBalanced text) :
    IsBalanced text := by
  obtain ⟨others, hothers, rfl⟩ := except_map_eq_ok.mp h
  rw [List.any_cons, Bool.or_eq_false_iff] at hnone
  exact htext hnone.1 (hrest hothers hnone.2)

/-- The parentheses of a text without parentheses among its tokens are those of attributes and of
the phrases of unnamed types. -/
theorem isBalanced_of_tokenize {text : List Char} {tokens : List Token}
    (h : tokenize text = .ok tokens) (hnone : tokens.any Token.isParenthesis = false) :
    IsBalanced text := by
  fun_induction tokenize text generalizing tokens with
  | case1 => exact .nil
  | case2 c rest hblank ih =>
    have hc : IsBalanced [c] := by
      rcases hblank with rfl | rfl <;> exact .char (by decide) (by decide)
    exact hc.append (ih h hnone)
  | case3 => simp at h
  | case4 rest hopens inside after hsplit _ _ ih =>
    refine isBalanced_of_map h hnone ih fun _ hafter => ?_
    rw [splitGroup_eq_some hsplit]
    simpa using (IsBalanced.inside hsplit).group.append hafter
  | case5 _ _ _ ih => exact isBalanced_of_map h hnone ih (by simp [Token.isParenthesis])
  | case6 c rest _ _ hdots ih =>
    refine isBalanced_of_map h hnone ih fun _ hafter => ?_
    obtain ⟨after, hrest⟩ := List.isPrefixOf_iff_prefix.mp hdots
    obtain ⟨rfl, rfl⟩ : '.' = c ∧ '.' :: '.' :: after = rest := by simpa using hrest
    have hpoints : IsBalanced ['.', '.', '.'] := .of_notMem (by decide) (by decide)
    exact hpoints.append hafter
  | case7 => simp at h
  | case8 c rest _ _ _ hc value hvalue _ ih =>
    refine isBalanced_of_map h hnone ih fun _ hafter => ?_
    refine .of_dropWhile (p := Char.isDigit) (by decide) (by decide) ?_
    rwa [List.dropWhile_cons_of_pos hc]
  | case9 => simp at h
  | case10 c rest =>
    rename_i hstart _ _ hword body hbody inside after hsplit _ _ _ ih
    refine .of_dropWhile (p := Text.isNamePart) (by decide) (by decide) ?_
    rw [List.dropWhile_cons_of_pos (Text.isNamePart_of_isNameStart hstart)]
    refine .of_dropWhile (p := Text.isBlank) (by decide) (by decide) ?_
    rw [Text.trimStart] at hbody
    rw [hbody, splitGroup_eq_some hsplit]
    simpa using (IsBalanced.inside hsplit).group.append (ih h hnone)
  | case11 => simp at h
  | case12 c rest =>
    rename_i hstart _ _ hword ih
    refine isBalanced_of_map h hnone ih fun _ hafter => ?_
    refine .of_dropWhile (p := Text.isNamePart) (by decide) (by decide) ?_
    rwa [List.dropWhile_cons_of_pos (Text.isNamePart_of_isNameStart hstart)]
  | case13 c rest _ hparen _ _ _ token htoken ih =>
    refine isBalanced_of_map h hnone ih fun hplain hafter => ?_
    have hc : c ≠ ')' := by
      rintro rfl
      obtain rfl := Option.some.inj htoken
      simp [Token.isParenthesis] at hplain
    exact (IsBalanced.char hparen hc).append hafter
  | case14 => simp at h

/-- An attribute gives no token, whatever stands in it. -/
theorem tokenize_attribute_balanced {content : List Char} (h : IsBalanced content)
    (back : List Char) :
    tokenize (attributeWord.toList ++ '(' :: (content ++ ')' :: back)) = tokenize back := by
  have hall : "_attribute__".toList.all Text.isNamePart = true := by decide
  have hword := List.all_eq_true.mp hall
  have hparen : Text.isNamePart '(' = false := by decide
  have hblank : Text.isBlank '(' = false := by decide
  have hend : splitGroup 0 (')' :: back) = some ([], back) := by
    rw [splitGroup_cons, if_pos ⟨rfl, rfl⟩]
  have hsplit : splitGroup 0 (content ++ ')' :: back) = some (content, back) := by
    rw [h, hend]
    simp
  refine @tokenize_attribute '_' ("_attribute__".toList ++ '(' :: (content ++ ')' :: back))
    (by decide) _ content back ?_ ?_ hsplit
  · rw [List.takeWhile_append_of_pos hword, List.takeWhile_cons_of_neg (by simp [hparen])]
    decide
  · rw [List.dropWhile_append_of_pos hword, List.dropWhile_cons_of_neg (by simp [hparen]),
      Text.trimStart, List.dropWhile_cons_of_neg (by simp [hblank])]

theorem opensAnonymous_attribute (back : List Char) :
    opensAnonymous (attributeWord.toList ++ back) = false := by
  have hword : attributeWord.toList = '_' :: "_attribute__".toList := by decide
  rw [hword]
  rfl

/-! Texts of primitive types. -/

/-- A word that spells a built-in type, or one that says nothing. -/
def Token.isPrimitiveWord : Token → Bool
  | .ident word => Word.of word == .builtin || Word.of word == .ignored
  | _ => false

theorem qualify_eq_primitive {isConst isVolatile : Bool} {type : CType} {kind : Primitive}
    (h : qualify isConst isVolatile type = .primitive kind) :
    isConst = false ∧ isVolatile = false ∧ type = .primitive kind := by
  cases isConst <;> cases isVolatile <;> simp_all [qualify, Qualifier.ofFlags?]

/-- Specifiers that take all tokens and name a primitive type are words of the type. -/
theorem readSpecifiers_primitive {found found' : Specifiers} {tokens : List Token}
    {kind : Primitive} (h : readSpecifiers found tokens = .ok (found', []))
    (htype : found'.type = .ok (.primitive kind))
    (hfound : found.base ≠ some (.primitive kind)) :
    (found.base = none ∧ found.isConst = false ∧ found.isVolatile = false) ∧
      tokens.all Token.isPrimitiveWord = true := by
  fun_induction readSpecifiers found tokens
  case case1 ih | case2 ih => simpa using (ih h hfound).1
  case case3 hword ih | case7 hword ih =>
    obtain ⟨hnone, hall⟩ := ih h hfound
    exact ⟨hnone, by simpa [Token.isPrimitiveWord, hword] using hall⟩
  case case4 | case6 | case9 => simp at h
  case case5 ih => simpa using (ih h (by unfold TagKind.type; split <;> simp)).1.1
  case case8 ih => simpa using (ih h (by simp)).1.1
  case case10 =>
    obtain ⟨rfl, rfl⟩ := Prod.mk.inj (Except.ok.inj h)
    obtain ⟨named, hnames, hqualify⟩ := Specifiers.type_eq_ok_iff.mp htype
    obtain ⟨hconst, hvolatile, rfl⟩ := qualify_eq_primitive hqualify
    rcases hnames with ⟨hbase, _⟩ | ⟨hbase, _⟩
    · exact absurd hbase hfound
    · exact ⟨⟨hbase, hconst, hvolatile⟩, rfl⟩

theorem readPointers_nil {tokens rest : List Token} (h : readPointers tokens = ([], rest)) :
    rest = tokens := by
  unfold readPointers at h
  split at h
  · simp at h
  · exact (Prod.mk.inj h).2.symm

/-- Without a step, declarators and suffixes take no token: there is a step inside parentheses. -/
theorem Reads.rest_eq {tokens rest : List Token} {phrase : Phrase} (h : Reads tokens phrase rest)
    (hphrase : phrase = .declarator [] ∨ phrase = .suffixes []) : rest = tokens := by
  induction h with
  | @plain _ _ _ pointers suffixes head _ _ ih =>
    obtain ⟨rfl, rfl⟩ : pointers = [] ∧ suffixes = [] := by simpa using hphrase
    rw [ih (Or.inr rfl), readPointers_nil head]
  | @grouped _ _ _ _ pointers nested suffixes _ opens _ _ ihg _ =>
    obtain ⟨-, -, rfl⟩ : pointers = [] ∧ suffixes = [] ∧ nested = [] := by simpa using hphrase
    obtain rfl := ihg (Or.inl rfl)
    simp [opensDeclarator] at opens
  | stop => rfl
  | _ => simp at hphrase

theorem applySteps_eq_primitive {steps : List Step} {type : CType} {kind : Primitive}
    (h : applySteps steps type = .primitive kind) : steps = [] ∧ type = .primitive kind := by
  rcases List.eq_nil_or_concat steps with rfl | ⟨init, last, rfl⟩
  · exact ⟨rfl, h⟩
  · rw [List.concat_eq_append, applySteps_append] at h
    cases last <;> simp [Step.apply] at h

/-- The tokens of a primitive type are words. -/
theorem isPrimitiveWord_of_reads {tokens : List Token} {kind : Primitive}
    (h : Reads tokens (.type (.primitive kind)) []) :
    tokens.all Token.isPrimitiveWord = true := by
  obtain ⟨base, mid, steps, hhead, htail, htype⟩ := reads_type_iff.mp h
  obtain ⟨rfl, rfl⟩ := applySteps_eq_primitive htype
  obtain rfl := htail.rest_eq (Or.inl rfl)
  simp only [specified, except_bind_eq_ok, except_pure_eq_ok, Prod.exists, Prod.mk.injEq] at hhead
  obtain ⟨found, _, hread, _, hkind, rfl, rfl⟩ := hhead
  exact (readSpecifiers_primitive hread hkind (by simp)).2

/-- Where a text with more text behind it begins with a word and a blank, its own first word is a
beginning of that word. -/
theorem firstWord_prefix {word text after : List Char} (h : (word ++ [' ']) <+: text ++ after) :
    text.takeWhile Text.isNamePart <+: word := by
  have htext := (List.takeWhile_prefix Text.isNamePart (l := text)).trans
    (List.prefix_append text after)
  rcases List.prefix_or_prefix_of_prefix h htext with hlong | hshort
  · have hblank := List.mem_takeWhile_imp (hlong.subset (List.mem_append_right _ (.head _)))
    simp [Text.isNamePart] at hblank
  · rcases List.prefix_concat_iff.mp hshort with hwhole | hprefix
    · have hblank := List.mem_takeWhile_imp (hwhole ▸ List.mem_append_right word (.head _))
      simp [Text.isNamePart] at hblank
    · exact hprefix

/-- No word of a primitive type begins like the phrase of an unnamed type. -/
theorem opensAnonymous_of_isPrimitiveWord {text : List Char} {tokens : List Token}
    (h : tokenize text = .ok tokens) (hwords : tokens.all Token.isPrimitiveWord = true)
    (hne : tokens ≠ []) (after : List Char) : opensAnonymous (text ++ after) = false := by
  have hbegins : ∀ phrase ∈ ["unnamed".toList, "anonymous".toList], ∀ word ∈ phrase.inits,
      (Token.ident (String.ofList word)).isPrimitiveWord = false ∧
        String.ofList word ≠ attributeWord := by decide +kernel
  have hstarts : ∀ phrase ∈ ["unnamed".toList, "anonymous".toList],
      phrase.head?.any Text.isNameStart = true := by decide
  rw [← Bool.not_eq_true]
  intro hopens
  obtain ⟨phrase, hphrase, hprefix⟩ : ∃ phrase ∈ ["unnamed".toList, "anonymous".toList],
      (phrase ++ [' ']) <+: text ++ after := by
    rcases Bool.or_eq_true_iff.mp hopens with hunnamed | hanonymous
    · exact ⟨_, .head _, List.isPrefixOf_iff_prefix.mp hunnamed⟩
    · exact ⟨_, .tail _ (.head _), List.isPrefixOf_iff_prefix.mp hanonymous⟩
  cases text with
  | nil => exact hne (by simpa [tokenize] using h.symm)
  | cons c rest =>
    have hstart : Text.isNameStart c = true := by
      have hhead := hstarts phrase hphrase
      cases phrase with
      | nil => simp at hhead
      | cons d phrase =>
        obtain ⟨rfl, -⟩ := List.cons_prefix_cons.mp hprefix
        simpa using hhead
    have hword : c :: rest.takeWhile Text.isNamePart <+: phrase := by
      rw [← List.takeWhile_cons_of_pos (Text.isNamePart_of_isNameStart hstart)]
      exact firstWord_prefix hprefix
    obtain ⟨hnone, hattribute⟩ := hbegins phrase hphrase _ (List.mem_inits _ _ |>.mpr hword)
    rw [tokenize_word hstart hattribute] at h
    obtain ⟨others, _, rfl⟩ := except_map_eq_ok.mp h
    rw [List.all_cons, hnone] at hwords
    cases hwords

/-! Vectors. -/

/-- How the compiler spells a vector of so many elements. -/
def vectorSpelling (count : Nat) (element : String) : String :=
  "__attribute__((__vector_size__(" ++ toString count ++ " * sizeof(" ++ element ++ ")))) " ++
    element

/-- What stands in the attribute of the spelling. -/
def vectorContent (count : Nat) (element : String) : List Char :=
  '(' :: ("__vector_size__".toList ++ '(' :: (Nat.toDigits 10 count ++ " * sizeof".toList ++
    '(' :: (element.toList ++ [')']) ++ [')']) ++ [')'])

theorem toList_vectorSpelling (count : Nat) (element : String) :
    (vectorSpelling count element).toList =
      attributeWord.toList ++ '(' :: (vectorContent count element ++ ')' :: ' ' ::
        element.toList) := by
  have hfront : "__attribute__((__vector_size__(".toList =
      attributeWord.toList ++ '(' :: '(' :: ("__vector_size__".toList ++ ['(']) := by
    decide +kernel
  have hmiddle : " * sizeof(".toList = " * sizeof".toList ++ ['('] := by decide
  have hend : ")))) ".toList = [')', ')', ')', ')', ' '] := by decide
  have hdigits : (toString count).toList = Nat.toDigits 10 count := String.toList_ofList
  unfold vectorSpelling vectorContent
  simp only [String.toList_append, hfront, hmiddle, hend, hdigits, List.append_assoc,
    List.cons_append, List.nil_append]

theorem isBalanced_vectorContent {element : String} (h : IsBalanced element.toList)
    (count : Nat) : IsBalanced (vectorContent count element) := by
  have hcount : IsBalanced (Nat.toDigits 10 count) := by
    have hdigits := List.all_eq_true.mp (Text.all_isDigit_toDigits count)
    exact .of_notMem (fun hmem => absurd (hdigits _ hmem) (by decide))
      (fun hmem => absurd (hdigits _ hmem) (by decide))
  have hname : IsBalanced "__vector_size__".toList := .of_notMem (by decide) (by decide)
  have hsizeof : IsBalanced " * sizeof".toList := .of_notMem (by decide) (by decide)
  exact (hname.append ((hcount.append hsizeof).append h.group).group).group

/-- The spelling gives the tokens of the element. -/
theorem tokenize_vectorSpelling {element : String} (h : IsBalanced element.toList) (count : Nat)
    (back : List Char) :
    tokenize ((vectorSpelling count element).toList ++ back) =
      tokenize (element.toList ++ back) := by
  have hskip := tokenize_attribute_balanced (isBalanced_vectorContent h count)
    (' ' :: (element.toList ++ back))
  rw [toList_vectorSpelling, List.append_assoc, List.cons_append, List.append_assoc]
  exact hskip.trans (tokenize_blank (Or.inl rfl))

/-- A vector of elements of a primitive type is read as its element, and so it is inside a larger
type: wherever the tokens in front end where the spelling begins, the type is the one with the
element alone in that place. -/
theorem parse_vectorSpelling {element : String} {kind : Primitive}
    (h : parse element = .ok (.primitive kind)) (count : Nat) :
    parse (vectorSpelling count element) = .ok (.primitive kind) ∧
      ∀ before after : String, (tokenize before.toList).isOk = true →
        before.toList.getLast?.any Text.isNamePart = false →
          ∀ type, parse (before ++ vectorSpelling count element ++ after) = .ok type ↔
            parse (before ++ element ++ after) = .ok type := by
  obtain ⟨words, helement, hreads⟩ := parse_eq_ok_iff.mp h
  have hwords := isPrimitiveWord_of_reads hreads
  have hparens : words.any Token.isParenthesis = false := by
    refine List.any_eq_false.mpr fun token htoken => ?_
    have hword := List.all_eq_true.mp hwords token htoken
    cases token <;> simp_all [Token.isParenthesis, Token.isPrimitiveWord]
  have hbalanced : IsBalanced element.toList := isBalanced_of_tokenize helement hparens
  constructor
  · have hvector := tokenize_vectorSpelling hbalanced count []
    rw [List.append_nil, List.append_nil] at hvector
    rw [parse_eq_ok_iff, hvector]
    exact ⟨words, helement, hreads⟩
  · intro before after hbefore hends type
    obtain ⟨tokens, htokens⟩ := except_isOk_iff.mp hbefore
    have hne : words ≠ [] := by
      obtain ⟨word, tail, rfl⟩ := hreads.type_head
      exact List.cons_ne_nil _ _
    have hvector : opensAnonymous ((vectorSpelling count element).toList ++ after.toList) =
        false := by
      rw [toList_vectorSpelling]
      exact opensAnonymous_attribute _
    have hword := opensAnonymous_of_isPrimitiveWord helement hwords hne after.toList
    rw [parse_eq_ok_iff, parse_eq_ok_iff]
    simp only [String.toList_append, List.append_assoc]
    rw [tokenize_append htokens (.of_ends hends hvector),
      tokenize_append htokens (.of_ends hends hword), tokenize_vectorSpelling hbalanced]

/-- A function that takes a pointer to a constant. -/
def parameterType : CType :=
  .function (.primitive .void) [.pointer (.qualified .constant (.primitive .unsignedInt))] false

theorem parse_vectorSpelling_parameter :
    parse "unsigned int" = .ok (.primitive .unsignedInt) ∧
      parse (vectorSpelling 4 "unsigned int") = .ok (.primitive .unsignedInt) ∧
      parse ("void (const " ++ vectorSpelling 4 "unsigned int" ++ " *)") = .ok parameterType := by
  have h : parse "unsigned int" = .ok (.primitive .unsignedInt) :=
    @parse_print (.primitive .unsignedInt) rfl
  have htokens : tokenize ("void (const " ++ "unsigned int" ++ " *)").toList =
      .ok (parameterType.declared []) := by decide +kernel
  have hreads : Reads (parameterType.declared [] ++ []) (.type parameterType) [] :=
    reads_declared parameterType (by decide) TakesSuffix.nil.fits rfl
  have hparameter : parse ("void (const " ++ "unsigned int" ++ " *)") = .ok parameterType :=
    parse_eq_ok_iff.mpr ⟨_, htokens, hreads⟩
  have hbefore : (tokenize "void (const ".toList).isOk = true := by decide +kernel
  obtain ⟨hvector, hinside⟩ := parse_vectorSpelling h 4
  exact ⟨h, hvector, (hinside "void (const " " *)" hbefore (by decide) _).mpr hparameter⟩

/-- A vector of four floats is read as one. -/
theorem parse_vectorSpelling_float :
    ¬ ∀ (element : String) (kind : Primitive) (count : Nat),
      parse element = .ok (.primitive kind) → 2 ≤ count →
        parse (vectorSpelling count element) ≠ .ok (.primitive kind) := by
  intro h
  have hfloat : parse "float" = .ok (.primitive .float) := @parse_print (.primitive .float) rfl
  have hbalanced : IsBalanced "float".toList := .of_notMem (by decide) (by decide)
  have hvector := tokenize_vectorSpelling hbalanced 4 []
  rw [List.append_nil, List.append_nil] at hvector
  refine h "float" .float 4 hfloat (by decide) ?_
  rw [parse_eq_ok_iff, hvector, ← parse_eq_ok_iff]
  exact hfloat

end HeaderInterop.CType
