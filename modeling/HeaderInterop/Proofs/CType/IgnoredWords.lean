import HeaderInterop.Proofs.CType.SpecifierOrder

/-!
Words that say nothing. Leaving ignored words out of the tokens of a type, or putting more of them
in behind a star or among specifiers, gives the tokens of the same type. It takes more than the two
loops that skip these words, since a parenthesis is told by the token behind it: no word may come to
stand there, or be taken away from there, where that matters. Behind a tag's keyword such a word is
the tag and is none of them.
-/

namespace HeaderInterop.CType

/-- Whether the token is the keyword of a tag, so that the next token is the tag. -/
def Token.isKeyword : Token → Bool
  | .ident word =>
    match Word.of word with
    | .tag _ => true
    | _ => false
  | _ => false

def Token.isIgnored : Token → Bool
  | .ident word => Word.of word == .ignored
  | _ => false

def startsIgnored : List Token → Bool
  | [] => false
  | token :: _ => token.isIgnored

/-- Whether ignored words are read behind the token: it is a star or a part of the specifiers. -/
def Token.takesIgnored : Token → Bool
  | .star | .ident _ | .anonymous _ => true
  | _ => false

def AllIgnored (words : List String) : Prop :=
  ∀ word ∈ words, Word.of word = .ignored

theorem AllIgnored.nil : AllIgnored [] :=
  List.forall_mem_nil _

theorem AllIgnored.singleton {word : String} (h : word ∈ ignoredWords) : AllIgnored [word] :=
  List.forall_mem_singleton.mpr (of_ignoredWords word h)

/-- The same tokens, ignored words apart: any of those in the first list may be missing in the
second, and this may have others behind a star or a word and in front of a word. -/
inductive SameUpToIgnored : List Token → List Token → Prop where
  | nil : SameUpToIgnored [] []
  | dropped {word rest other} (ignored : Word.of word = .ignored)
      (tail : SameUpToIgnored rest other) : SameUpToIgnored (.ident word :: rest) other
  | token {token rest other words} (plain : token.isKeyword = false) (ignored : AllIgnored words)
      (place : words = [] ∨ token.takesIgnored = true ∨ startsWord rest = true)
      (tail : SameUpToIgnored rest other) :
      SameUpToIgnored (token :: rest) (token :: (wordTokens words ++ other))
  | tag {keyword kind tag rest other words} (isTag : Word.of keyword = .tag kind)
      (ignored : AllIgnored words) (tail : SameUpToIgnored rest other) :
      SameUpToIgnored (.ident keyword :: tag :: rest)
        (.ident keyword :: tag :: (wordTokens words ++ other))
  | keyword {keyword kind} (isTag : Word.of keyword = .tag kind) :
      SameUpToIgnored [.ident keyword] [.ident keyword]

/-! Reading over ignored words. -/

section Skip

variable {words : List String} (h : AllIgnored words) (tokens : List Token)
include h

theorem readSpecifiers_skip (found : Specifiers) :
    readSpecifiers found (wordTokens words ++ tokens) = readSpecifiers found tokens := by
  induction words with
  | nil => rfl
  | cons word words ih =>
    obtain ⟨hword, hwords⟩ := List.forall_mem_cons.mp h
    simpa [wordTokens, readSpecifiers, hword] using ih hwords

theorem readQualifiers_skip (isConst isVolatile : Bool) :
    readQualifiers isConst isVolatile (wordTokens words ++ tokens) =
      readQualifiers isConst isVolatile tokens := by
  induction words with
  | nil => rfl
  | cons word words ih =>
    obtain ⟨hword, hwords⟩ := List.forall_mem_cons.mp h
    simpa [wordTokens, readQualifiers, hword] using ih hwords

end Skip

/-! What a reader does with the token at hand does not hang on the tokens behind it. -/

theorem readSpecifiers_plain {token : Token} (plain : token.isKeyword = false)
    (found : Specifiers) :
    (∃ next, ∀ tokens, readSpecifiers found (token :: tokens) = readSpecifiers next tokens) ∨
      ∀ tokens, readSpecifiers found (token :: tokens) = .ok (found, token :: tokens) := by
  cases token with
  | ident word =>
    cases hword : Word.of word with
    | const => exact Or.inl ⟨{ found with isConst := true }, fun _ => by rw [readSpecifiers, hword]⟩
    | volatile =>
      exact Or.inl ⟨{ found with isVolatile := true }, fun _ => by rw [readSpecifiers, hword]⟩
    | ignored => exact Or.inl ⟨found, fun _ => by rw [readSpecifiers, hword]⟩
    | builtin =>
      exact Or.inl ⟨{ found with words := found.words ++ [word] }, fun _ => by
        rw [readSpecifiers, hword]⟩
    | name =>
      by_cases hfree : (found.base.isNone && found.words.isEmpty) = true
      · refine Or.inl ⟨{ found with base := some (.typedef word) }, fun tokens => ?_⟩
        simp only [readSpecifiers, hword, hfree, if_true]
      · refine Or.inr fun tokens => ?_
        simp only [readSpecifiers, hword, if_neg hfree]
    | tag kind => simp [Token.isKeyword, hword] at plain
  | _ => exact Or.inr fun _ => rfl

theorem readSpecifiers_tagged {keyword : String} {kind : TagKind}
    (isTag : Word.of keyword = .tag kind) (tag : Token) (found : Specifiers) :
    (∃ next, ∀ tokens,
        readSpecifiers found (.ident keyword :: tag :: tokens) = readSpecifiers next tokens) ∨
      ∃ fault, ∀ tokens, readSpecifiers found (.ident keyword :: tag :: tokens) = .error fault := by
  cases htag : tagName? tag with
  | some name =>
    refine Or.inl ⟨{ found with base := some (kind.type name) }, fun tokens => ?_⟩
    simp only [readSpecifiers, isTag, htag]
  | none =>
    refine Or.inr ⟨.expectedTag (some tag), fun tokens => ?_⟩
    simp only [readSpecifiers, isTag, htag]

theorem readQualifiers_token (token : Token) (isConst isVolatile : Bool) :
    (∃ isConst' isVolatile', ∀ tokens, readQualifiers isConst isVolatile (token :: tokens) =
        readQualifiers isConst' isVolatile' tokens) ∨
      token.isIgnored = false ∧ ∀ tokens, readQualifiers isConst isVolatile (token :: tokens) =
        (isConst, isVolatile, token :: tokens) := by
  cases token with
  | ident word =>
    cases hword : Word.of word with
    | const => exact Or.inl ⟨true, isVolatile, fun _ => by rw [readQualifiers, hword]⟩
    | volatile => exact Or.inl ⟨isConst, true, fun _ => by rw [readQualifiers, hword]⟩
    | ignored => exact Or.inl ⟨isConst, isVolatile, fun _ => by rw [readQualifiers, hword]⟩
    | builtin | name | tag =>
      refine Or.inr ⟨by simp [Token.isIgnored, hword], fun tokens => ?_⟩
      simp only [readQualifiers, hword]
  | _ => exact Or.inr ⟨rfl, fun _ => rfl⟩

variable {tokens other rest mid : List Token}

theorem readSpecifiers_same (h : SameUpToIgnored tokens other) {found found' : Specifiers}
    (hread : readSpecifiers found tokens = .ok (found', mid)) :
    ∃ mid', SameUpToIgnored mid mid' ∧ readSpecifiers found other = .ok (found', mid') := by
  induction h generalizing found with
  | nil =>
    cases hread
    exact ⟨[], .nil, rfl⟩
  | dropped ignored _ ih =>
    rw [readSpecifiers, ignored] at hread
    exact ih hread
  | token plain ignored place tail ih =>
    rcases readSpecifiers_plain plain found with ⟨next, hnext⟩ | hstop
    · rw [hnext] at hread ⊢
      rw [readSpecifiers_skip ignored]
      exact ih hread
    · rw [hstop] at hread ⊢
      cases hread
      exact ⟨_, .token plain ignored place tail, rfl⟩
  | @tag _ _ tag _ _ _ isTag ignored tail ih =>
    rcases readSpecifiers_tagged isTag tag found with ⟨next, hnext⟩ | ⟨fault, hfault⟩
    · rw [hnext] at hread ⊢
      rw [readSpecifiers_skip ignored]
      exact ih hread
    · rw [hfault] at hread
      cases hread
  | keyword isTag =>
    rw [readSpecifiers, isTag] at hread
    cases hread

theorem specified_same (h : SameUpToIgnored tokens other) {type : CType}
    (hread : specified tokens = .ok (type, mid)) :
    ∃ mid', SameUpToIgnored mid mid' ∧ specified other = .ok (type, mid') := by
  simp only [specified, except_bind_eq_ok, except_pure_eq_ok, Prod.exists, Prod.mk.injEq] at hread
  obtain ⟨found, mid, hfound, _, htype, rfl, rfl⟩ := hread
  obtain ⟨mid', hmid, hother⟩ := readSpecifiers_same h hfound
  refine ⟨mid', hmid, ?_⟩
  simp only [specified, hother, bind, Except.bind, htype]
  rfl

theorem readQualifiers_same (h : SameUpToIgnored tokens other)
    {isConst isVolatile isConst' isVolatile' : Bool}
    (hread : readQualifiers isConst isVolatile tokens = (isConst', isVolatile', mid)) :
    startsIgnored mid = false ∧ ∃ mid', SameUpToIgnored mid mid' ∧
      readQualifiers isConst isVolatile other = (isConst', isVolatile', mid') := by
  induction h generalizing isConst isVolatile with
  | nil =>
    cases hread
    exact ⟨rfl, [], .nil, rfl⟩
  | dropped ignored _ ih =>
    rw [readQualifiers, ignored] at hread
    exact ih hread
  | @token token _ _ _ plain ignored place tail ih =>
    rcases readQualifiers_token token isConst isVolatile with ⟨_, _, hnext⟩ | ⟨hignored, hstop⟩
    · rw [hnext] at hread ⊢
      rw [readQualifiers_skip ignored]
      exact ih hread
    · rw [hstop] at hread ⊢
      cases hread
      exact ⟨hignored, _, .token plain ignored place tail, rfl⟩
  | tag isTag ignored tail ih =>
    rw [readQualifiers, isTag] at hread
    cases hread
    refine ⟨by simp [startsIgnored, Token.isIgnored, isTag], _, .tag isTag ignored tail, ?_⟩
    rw [readQualifiers, isTag]
  | keyword isTag =>
    rw [readQualifiers, isTag] at hread
    cases hread
    refine ⟨by simp [startsIgnored, Token.isIgnored, isTag], _, .keyword isTag, ?_⟩
    rw [readQualifiers, isTag]

/-- Ignored words in front of the stars would end them, so there must be none. -/
theorem readPointers_same (h : SameUpToIgnored tokens other)
    (hstart : startsIgnored tokens = false) {pointers : List Step}
    (hread : readPointers tokens = (pointers, mid)) :
    ∃ mid', SameUpToIgnored mid mid' ∧ readPointers other = (pointers, mid') := by
  fun_induction readPointers tokens generalizing other pointers mid with
  | case1 rest =>
    rename_i flags more ih
    cases h with
    | token _ ignored _ tail =>
      obtain ⟨hignored, mid₁, hmid₁, hquals⟩ := readQualifiers_same tail (Eq.refl flags)
      obtain ⟨mid', hmid, hmore⟩ := ih hmid₁ hignored (Eq.refl more)
      obtain ⟨rfl, rfl⟩ := Prod.mk.inj hread
      refine ⟨mid', hmid, ?_⟩
      rw [readPointers, readQualifiers_skip ignored, hquals]
      simp only [hmore]
      rfl
  | case2 tokens hstar =>
    obtain ⟨rfl, rfl⟩ := Prod.mk.inj hread
    refine ⟨other, h, ?_⟩
    unfold readPointers
    split
    · cases h with
      | dropped ignored => simp [startsIgnored, Token.isIgnored, ignored] at hstart
      | token => exact absurd rfl (hstar _)
    · rfl

/-! Phrases. -/

theorem opensDeclarator_suffixes {steps : List Step} (h : Reads tokens (.suffixes steps) rest) :
    opensDeclarator tokens = false := by
  cases h with
  | stop stops =>
    unfold opensDeclarator
    split <;> simp_all [opensSuffix]
  | someParams list => exact opensDeclarator_params list
  | _ => rfl

/-- Behind punctuation, ignored words stand only in front of a word. -/
theorem SameUpToIgnored.behind {token : Token} (h : SameUpToIgnored (token :: rest) other)
    (htoken : token.takesIgnored = false) :
    ∃ words other', other = token :: (wordTokens words ++ other') ∧ AllIgnored words ∧
      (words = [] ∨ startsWord rest = true) ∧ SameUpToIgnored rest other' := by
  cases h with
  | token plain ignored place tail =>
    exact ⟨_, _, rfl, ignored, place.imp_right fun h => h.resolve_left (by simp [htoken]), tail⟩
  | _ => simp [Token.takesIgnored] at htoken

theorem SameUpToIgnored.punctuation {token : Token} (h : SameUpToIgnored (token :: rest) other)
    (htoken : token.takesIgnored = false) (hrest : startsWord rest = false) :
    ∃ other', other = token :: other' ∧ SameUpToIgnored rest other' := by
  obtain ⟨words, other', rfl, _, rfl | hword, tail⟩ := h.behind htoken
  · exact ⟨other', rfl, tail⟩
  · simp [hrest] at hword

theorem startsIgnored_of_startsWord (h : startsWord tokens = false) :
    startsIgnored tokens = false := by
  cases tokens with
  | nil => rfl
  | cons token tokens => cases token <;> first | rfl | simp [startsWord] at h

theorem startsWord_of_opensDeclarator (h : opensDeclarator (.lparen :: tokens) = true) :
    startsWord tokens = false := by
  unfold opensDeclarator at h
  split at h <;> simp_all [startsWord]

theorem SameUpToIgnored.opensDeclarator (h : SameUpToIgnored tokens other)
    (hopens : CType.opensDeclarator (.lparen :: tokens) = true) :
    CType.opensDeclarator (.lparen :: other) = true := by
  unfold CType.opensDeclarator at hopens
  split at hopens
  case h_4 => simp at hopens
  all_goals
    rename_i heq
    obtain rfl := (List.cons.inj heq).2
    cases h
    rfl

theorem SameUpToIgnored.opensSuffix (h : SameUpToIgnored tokens other)
    (hends : endsType tokens = true) : CType.opensSuffix other = false := by
  unfold endsType at hends
  split at hends
  case h_4 => simp at hends
  all_goals
    cases h
    rfl

/-- What stands behind the phrase ends it, so that it does not go on with other words there. -/
def Phrase.EndsBefore (rest : List Token) : Phrase → Prop
  | .params .. => startsWord rest = false
  | _ => endsType rest = true

theorem specified_skip {words : List String} (h : AllIgnored words) (tokens : List Token) :
    specified (wordTokens words ++ tokens) = specified tokens := by
  simp only [specified, readSpecifiers_skip h]

theorem Reads.same {phrase : Phrase} (h : Reads tokens phrase rest)
    (hends : phrase.EndsBefore rest) {words : List String} (hwords : AllIgnored words)
    (hplace : words = [] ∨ startsWord tokens = true) (hother : SameUpToIgnored tokens other) :
    ∃ rest', SameUpToIgnored rest rest' ∧ Reads (wordTokens words ++ other) phrase rest' := by
  -- The words in front are those that the token before has been left with; where no specifiers can
  -- begin there are none.
  induction h generalizing words other with
  | type head tail ih =>
    obtain ⟨mid', hmid, hhead⟩ := specified_same hother head
    obtain ⟨rest', hrest, htail⟩ := ih hends .nil (Or.inl rfl) hmid
    exact ⟨rest', hrest, .type ((specified_skip hwords other).trans hhead) htail⟩
  | plain head hplain tail ih =>
    have hstart := startsWord_of_reads_declarator (.plain head hplain tail) hends
    obtain rfl : words = [] := hplace.resolve_right (by simp [hstart])
    obtain ⟨mid', hmid, hhead⟩ := readPointers_same hother (startsIgnored_of_startsWord hstart) head
    obtain ⟨rest', hrest, htail⟩ := ih hends .nil (Or.inl rfl) hmid
    exact ⟨rest', hrest, .plain hhead (opensDeclarator_suffixes htail) htail⟩
  | grouped head opens group tail ihg ih =>
    have hstart := startsWord_of_reads_declarator (.grouped head opens group tail) hends
    obtain rfl : words = [] := hplace.resolve_right (by simp [hstart])
    obtain ⟨mid', hmid, hhead⟩ := readPointers_same hother (startsIgnored_of_startsWord hstart) head
    obtain ⟨inside', rfl, hinside⟩ := hmid.punctuation rfl (startsWord_of_opensDeclarator opens)
    obtain ⟨closed, hclosed, hgroup⟩ := ihg rfl .nil (Or.inl rfl) hinside
    obtain ⟨after, rfl, hafter⟩ := hclosed.punctuation rfl (startsWord_of_reads_suffixes tail hends)
    obtain ⟨rest', hrest, htail⟩ := ih hends .nil (Or.inl rfl) hafter
    exact ⟨rest', hrest, .grouped hhead (hinside.opensDeclarator opens) hgroup htail⟩
  | @stop tokens stops =>
    obtain rfl : words = [] := hplace.resolve_right (by simp [startsWord_of_endsType hends])
    exact ⟨other, hother, .stop (hother.opensSuffix hends)⟩
  | sized tail ih =>
    obtain rfl : words = [] := hplace.resolve_right nofun
    obtain ⟨_, rfl, hsize⟩ := hother.punctuation rfl rfl
    obtain ⟨_, rfl, hclosed⟩ := hsize.punctuation rfl rfl
    obtain ⟨_, rfl, hmid⟩ := hclosed.punctuation rfl (startsWord_of_reads_suffixes tail hends)
    obtain ⟨rest', hrest, htail⟩ := ih hends .nil (Or.inl rfl) hmid
    exact ⟨rest', hrest, .sized htail⟩
  | unsized tail ih =>
    obtain rfl : words = [] := hplace.resolve_right nofun
    obtain ⟨_, rfl, hclosed⟩ := hother.punctuation rfl rfl
    obtain ⟨_, rfl, hmid⟩ := hclosed.punctuation rfl (startsWord_of_reads_suffixes tail hends)
    obtain ⟨rest', hrest, htail⟩ := ih hends .nil (Or.inl rfl) hmid
    exact ⟨rest', hrest, .unsized htail⟩
  | noParams tail ih =>
    obtain rfl : words = [] := hplace.resolve_right nofun
    obtain ⟨_, rfl, hclosed⟩ := hother.punctuation rfl rfl
    obtain ⟨_, rfl, hmid⟩ := hclosed.punctuation rfl (startsWord_of_reads_suffixes tail hends)
    obtain ⟨rest', hrest, htail⟩ := ih hends .nil (Or.inl rfl) hmid
    exact ⟨rest', hrest, .noParams htail⟩
  | someParams list tail ihl ih =>
    obtain rfl : words = [] := hplace.resolve_right nofun
    obtain ⟨first, inside', rfl, hfirst, hbefore, hinside⟩ := hother.behind rfl
    obtain ⟨mid', hmid, hlist⟩ :=
      ihl (startsWord_of_reads_suffixes tail hends) hfirst hbefore hinside
    obtain ⟨rest', hrest, htail⟩ := ih hends .nil (Or.inl rfl) hmid
    exact ⟨rest', hrest, .someParams hlist htail⟩
  | lastParam head ih =>
    obtain ⟨_, hclosed, hhead⟩ := ih rfl hwords hplace hother
    obtain ⟨rest', rfl, hrest⟩ := hclosed.punctuation rfl hends
    exact ⟨rest', hrest, .lastParam hhead⟩
  | param head tail ihh ih =>
    obtain ⟨_, hcomma, hhead⟩ := ihh rfl hwords hplace hother
    obtain ⟨next, mid', rfl, hnext, hbefore, hmid⟩ := hcomma.behind rfl
    obtain ⟨rest', hrest, htail⟩ := ih hends hnext hbefore hmid
    exact ⟨rest', hrest, .param hhead htail⟩
  | lastDots =>
    obtain rfl : words = [] := hplace.resolve_right nofun
    obtain ⟨_, rfl, hclosed⟩ := hother.punctuation rfl rfl
    obtain ⟨rest', rfl, hrest⟩ := hclosed.punctuation rfl hends
    exact ⟨rest', hrest, .lastDots⟩
  | dots tail ih =>
    obtain rfl : words = [] := hplace.resolve_right nofun
    obtain ⟨_, rfl, hcomma⟩ := hother.punctuation rfl rfl
    obtain ⟨next, mid', rfl, hnext, hbefore, hmid⟩ := hcomma.behind rfl
    obtain ⟨rest', hrest, htail⟩ := ih hends hnext hbefore hmid
    exact ⟨rest', hrest, .dots htail⟩

/-! Words left out, and words put in. -/

/-- The second tokens are the first without some of the ignored words in them. A word that is the
tag behind a tag's keyword stays. -/
inductive LeavesOut : List Token → List Token → Prop where
  | nil : LeavesOut [] []
  | word {word rest fewer} (ignored : word ∈ ignoredWords) (tail : LeavesOut rest fewer) :
      LeavesOut (.ident word :: rest) fewer
  | token {token rest fewer} (plain : token.isKeyword = false) (tail : LeavesOut rest fewer) :
      LeavesOut (token :: rest) (token :: fewer)
  | tag {keyword tag rest fewer} (isTag : keyword.isKeyword = true) (tail : LeavesOut rest fewer) :
      LeavesOut (keyword :: tag :: rest) (keyword :: tag :: fewer)
  | keyword {keyword} (isTag : keyword.isKeyword = true) : LeavesOut [keyword] [keyword]

/-- Whether the tokens end in a tag's keyword, so that the next token is the tag. -/
def awaitsTag : List Token → Bool
  | [] => false
  | [token] => token.isKeyword
  | token :: next :: rest => if token.isKeyword then awaitsTag rest else awaitsTag (next :: rest)

/-- Whether the two stretches of tokens meet behind a star, or among specifiers: in front of a word
or behind one, but not between a tag's keyword and the tag. -/
def takesIgnoredBetween (before after : List Token) : Bool :=
  !awaitsTag before && (before.getLast?.any Token.takesIgnored || startsWord after)

theorem Token.exists_keyword {token : Token} (h : token.isKeyword = true) :
    ∃ keyword kind, token = .ident keyword ∧ Word.of keyword = .tag kind := by
  unfold isKeyword at h
  split at h
  · split at h
    next kind heq => exact ⟨_, kind, rfl, heq⟩
    next => simp at h
  · simp at h

theorem LeavesOut.same {tokens fewer : List Token} (h : LeavesOut tokens fewer) :
    SameUpToIgnored tokens fewer := by
  induction h with
  | nil => exact .nil
  | word ignored _ ih => exact .dropped (of_ignoredWords _ ignored) ih
  | token plain _ ih => exact .token plain .nil (Or.inl rfl) ih
  | tag isTag _ ih =>
    obtain ⟨_, _, rfl, hkind⟩ := Token.exists_keyword isTag
    exact .tag hkind .nil ih
  | keyword isTag =>
    obtain ⟨_, _, rfl, hkind⟩ := Token.exists_keyword isTag
    exact .keyword hkind

theorem SameUpToIgnored.refl (tokens : List Token) : SameUpToIgnored tokens tokens := by
  fun_induction awaitsTag tokens with
  | case1 => exact .nil
  | case2 token =>
    cases hkeyword : token.isKeyword with
    | false => exact .token hkeyword .nil (Or.inl rfl) .nil
    | true =>
      obtain ⟨_, _, rfl, hkind⟩ := Token.exists_keyword hkeyword
      exact .keyword hkind
  | case3 _ _ _ hkeyword ih =>
    obtain ⟨_, _, rfl, hkind⟩ := Token.exists_keyword hkeyword
    exact .tag hkind .nil ih
  | case4 _ _ _ hkeyword ih => exact .token (by simpa using hkeyword) .nil (Or.inl rfl) ih

/-- Another ignored word behind the first tokens, if there are any. -/
theorem SameUpToIgnored.inserted {before after : List Token} (hbefore : before ≠ [])
    {word : String} (hword : word ∈ ignoredWords)
    (hplace : takesIgnoredBetween before after = true) :
    SameUpToIgnored (before ++ after) (before ++ .ident word :: after) := by
  have hone := AllIgnored.singleton hword
  simp only [takesIgnoredBetween, Bool.and_eq_true, Bool.not_eq_true', Bool.or_eq_true] at hplace
  obtain ⟨hawaits, hplace⟩ := hplace
  fun_induction awaitsTag before with
  | case1 => exact absurd rfl hbefore
  | case2 token => exact .token hawaits hone (Or.inr (by simpa using hplace)) (.refl after)
  | case3 _ _ rest hkeyword ih =>
    obtain ⟨_, _, rfl, hkind⟩ := Token.exists_keyword hkeyword
    cases rest with
    | nil => exact .tag hkind hone (.refl after)
    | cons token rest =>
      exact .tag hkind .nil (ih (List.cons_ne_nil _ _) hawaits (by simpa using hplace))
  | case4 _ next rest hkeyword ih =>
    exact .token (by simpa using hkeyword) .nil (Or.inl rfl)
      (ih (List.cons_ne_nil _ _) hawaits (by simpa using hplace))

/-- An ignored word anywhere behind a star or among specifiers goes unnoticed, as does the lack of
one. -/
theorem ofTokens_ignored {tokens : List Token} {type : CType} (h : ofTokens tokens = .ok type) :
    (∀ fewer, LeavesOut tokens fewer → ofTokens fewer = .ok type) ∧
      ∀ before after word, before ++ after = tokens → word ∈ ignoredWords →
        takesIgnoredBetween before after = true →
          ofTokens (before ++ .ident word :: after) = .ok type := by
  rw [ofTokens_eq_ok_iff] at h
  -- Nothing is left behind the type, with or without the words.
  have hsame : ∀ {words other}, AllIgnored words → words = [] ∨ startsWord tokens = true →
      SameUpToIgnored tokens other → ofTokens (wordTokens words ++ other) = .ok type := by
    intro words other hwords hplace hother
    obtain ⟨rest, hrest, hread⟩ := h.same rfl hwords hplace hother
    cases hrest
    exact ofTokens_eq_ok_iff.mpr hread
  constructor
  · intro fewer hfewer
    exact hsame .nil (Or.inl rfl) hfewer.same
  · rintro before after word rfl hword hplace
    by_cases hbefore : before = []
    · subst hbefore
      have hstart : startsWord after = true := by
        simpa [takesIgnoredBetween, awaitsTag] using hplace
      exact hsame (.singleton hword) (Or.inr hstart) (.refl after)
    · exact hsame .nil (Or.inl rfl) (.inserted hbefore hword hplace)

/-- A callback that takes a pointer to a record with the tag `restrict`. -/
def callbackType : CType :=
  .qualified .constant
    (.pointer (.function (.primitive .void) [.pointer (.record .struct (some "restrict"))] false))

/-- The callback's tokens, with others behind the star and behind the tag. -/
def callbackTokens (behindStar behindTag : List Token) : List Token :=
  [.ident "void", .lparen, .star] ++ behindStar ++ [.ident "const", .rparen, .lparen,
    .ident "struct", .ident "restrict"] ++ behindTag ++ [.star, .rparen]

theorem ofTokens_ignored_callback :
    ofTokens (callbackTokens [] []) = .ok callbackType ∧
      ofTokens (callbackTokens [.ident "restrict"] []) = .ok callbackType ∧
      ofTokens (callbackTokens [.ident "restrict"] [.ident "restrict"]) = .ok callbackType ∧
      ofTokens (callbackTokens [] [.ident "restrict"]) = .ok callbackType := by
  have hrestrict : "restrict" ∈ ignoredWords := by decide
  have hreads : Reads (callbackType.declared [] ++ []) (.type callbackType) [] :=
    reads_declared callbackType (by decide) TakesSuffix.nil.fits rfl
  have h : ofTokens (callbackTokens [] []) = .ok callbackType := ofTokens_eq_ok_iff.mpr hreads
  have hstar := (ofTokens_ignored h).2 _ _ "restrict"
    (List.take_append_drop 3 (callbackTokens [] [])) hrestrict (by decide)
  have hboth := (ofTokens_ignored hstar).2 _ _ "restrict"
    (List.take_append_drop 9 (callbackTokens [.ident "restrict"] [])) hrestrict (by decide)
  -- The word behind the star is left out, and the tag is not.
  have htag := (ofTokens_ignored hboth).1 (callbackTokens [] [.ident "restrict"])
    (.token (by decide) (.token rfl (.token rfl (.word hrestrict (.token (by decide) (.token rfl
      (.token rfl (.tag (by decide) (.token (by decide) (.token rfl (.token rfl .nil)))))))))))
  exact ⟨h, hstar, hboth, htag⟩

end HeaderInterop.CType
