import HeaderInterop.Proofs.CType.RoundTrip
import HeaderInterop.Proofs.CType.Seams

/-!
The order of specifiers. With at most one name among them, the specifiers of a type say the same in
every order: the flags are set wherever their words stand, and a built-in type is read off its words
as a whole. A typedef's name behind such a word is not read at all and in front of it is in conflict
with it, so neither order is a type.
-/

namespace HeaderInterop.CType

/-- The keyword of the tag. -/
def TagKind.keyword : TagKind → String
  | enum => "enum"
  | record kind => kind.tag

/-- What a type may be specified with. A tag's keyword and its name belong together. -/
inductive Specifier where
  | const
  | volatile
  | ignored (word : String) (isIgnored : word ∈ ignoredWords)
  | builtin (word : String) (isBuiltin : word ∈ builtinWords)
  | typedef (name : String) (isName : isTypedefName name = true)
  | tag (kind : TagKind) (name : String) (isTag : isTagName name = true)

namespace Specifier

def words : Specifier → List String
  | const => ["const"]
  | volatile => ["volatile"]
  | ignored word _ | builtin word _ | typedef word _ => [word]
  | tag kind name _ => [kind.keyword, name]

def isConst : Specifier → Bool
  | const => true
  | _ => false

def isVolatile : Specifier → Bool
  | volatile => true
  | _ => false

/-- The word of a built-in type. -/
def builtin? : Specifier → Option String
  | builtin word _ => some word
  | _ => none

/-- The type that the specifier names. -/
def base? : Specifier → Option CType
  | typedef name _ => some (.typedef name)
  | tag kind name _ => some (kind.type (some name))
  | _ => none

end Specifier

/-- The specifiers with blanks between their words, and the text behind them. -/
def written (specifiers : List Specifier) (tail : String) : String :=
  " ".intercalate (specifiers.flatMap Specifier.words) ++ tail

/-- What has been found once the specifier has been read too. -/
def Specifiers.add (found : Specifiers) : Specifier → Specifiers
  | .const => { found with isConst := true }
  | .volatile => { found with isVolatile := true }
  | .ignored .. => found
  | .builtin word _ => { found with words := found.words ++ [word] }
  | .typedef name _ => { found with base := some (.typedef name) }
  | .tag kind name _ => { found with base := some (kind.type (some name)) }

section Gathered

variable (specifiers : List Specifier) (found : Specifiers)

theorem isConst_foldl_add :
    (specifiers.foldl .add found).isConst =
      (found.isConst || specifiers.any Specifier.isConst) := by
  induction specifiers generalizing found with
  | nil => simp
  | cons specifier rest ih =>
    rw [List.foldl_cons, ih]
    cases specifier <;> simp [Specifiers.add, Specifier.isConst]

theorem isVolatile_foldl_add :
    (specifiers.foldl .add found).isVolatile =
      (found.isVolatile || specifiers.any Specifier.isVolatile) := by
  induction specifiers generalizing found with
  | nil => simp
  | cons specifier rest ih =>
    rw [List.foldl_cons, ih]
    cases specifier <;> simp [Specifiers.add, Specifier.isVolatile]

theorem words_foldl_add :
    (specifiers.foldl .add found).words =
      found.words ++ specifiers.filterMap Specifier.builtin? := by
  induction specifiers generalizing found with
  | nil => simp
  | cons specifier rest ih =>
    rw [List.foldl_cons, ih]
    cases specifier <;> simp [Specifiers.add, Specifier.builtin?, List.filterMap_cons]

theorem base_foldl_add :
    (specifiers.foldl .add found).base =
      (specifiers.filterMap Specifier.base?).getLast?.or found.base := by
  induction specifiers generalizing found with
  | nil => simp
  | cons specifier rest ih =>
    rw [List.foldl_cons, ih]
    cases specifier <;>
      simp [Specifiers.add, Specifier.base?, List.filterMap_cons, List.getLast?_cons]

end Gathered

/-- What specifiers say together. -/
def gathered (specifiers : List Specifier) : Specifiers :=
  specifiers.foldl .add {}

/-! What specifiers say together does not hang on their order. -/

theorem primitive?_perm {words words' : List String} (h : words.Perm words') :
    primitive? words = primitive? words' := by
  have hcontains (word : String) : words.contains word = words'.contains word :=
    Bool.eq_iff_iff.mpr (by simp [h.mem_iff])
  simp only [primitive?, hcontains, h.count_eq]

/-- The same has been found, the words in whatever order. -/
structure Specifiers.Alike (found found' : Specifiers) : Prop where
  isConst : found.isConst = found'.isConst
  isVolatile : found.isVolatile = found'.isVolatile
  words : found.words.Perm found'.words
  base : found.base = found'.base

theorem Specifiers.Alike.symm {found found' : Specifiers} (h : found.Alike found') :
    found'.Alike found :=
  ⟨h.isConst.symm, h.isVolatile.symm, h.words.symm, h.base.symm⟩

/-- The type under the qualifiers: a name that stands alone, or what the words spell. -/
def Specifiers.Names (found : Specifiers) (type : CType) : Prop :=
  (found.base = some type ∧ found.words = []) ∨
    (found.base = none ∧ found.words ≠ [] ∧
      ∃ kind, primitive? found.words = some kind ∧ type = .primitive kind)

theorem Specifiers.type_eq_ok_iff {found : Specifiers} {type : CType} :
    found.type = .ok type ↔
      ∃ named, found.Names named ∧ qualify found.isConst found.isVolatile named = type := by
  unfold Specifiers.type Specifiers.Names
  cases found.base with
  | some base => cases found.words <;> simp
  | none =>
    cases hwords : found.words with
    | nil => simp
    | cons word rest => cases hkind : primitive? (word :: rest) <;> simp [hkind]

theorem Specifiers.Alike.names {found found' : Specifiers} (h : found.Alike found') {type : CType}
    (hnames : found.Names type) : found'.Names type := by
  rcases hnames with ⟨hbase, hwords⟩ | ⟨hbase, hwords, hkind⟩
  · exact Or.inl ⟨h.base ▸ hbase, (hwords ▸ h.words).symm.eq_nil⟩
  · refine Or.inr ⟨h.base ▸ hbase, ?_, primitive?_perm h.words ▸ hkind⟩
    intro hnil
    exact hwords (hnil ▸ h.words).eq_nil

theorem Specifiers.Alike.type_eq_ok {found found' : Specifiers} (h : found.Alike found')
    {type : CType} (htype : found.type = .ok type) : found'.type = .ok type := by
  obtain ⟨named, hnames, hqualify⟩ := type_eq_ok_iff.mp htype
  rw [h.isConst, h.isVolatile] at hqualify
  exact type_eq_ok_iff.mpr ⟨named, h.names hnames, hqualify⟩

theorem gathered_alike {specifiers order : List Specifier} (h : order.Perm specifiers)
    (hbase : (specifiers.filterMap Specifier.base?).length ≤ 1) :
    (gathered specifiers).Alike (gathered order) where
  isConst := by
    rw [gathered, gathered, isConst_foldl_add, isConst_foldl_add, h.any_eq]
  isVolatile := by
    rw [gathered, gathered, isVolatile_foldl_add, isVolatile_foldl_add, h.any_eq]
  words := by
    rw [gathered, gathered, words_foldl_add, words_foldl_add]
    exact (h.filterMap Specifier.builtin?).symm
  base := by
    have hbases := h.filterMap Specifier.base?
    have heq : order.filterMap Specifier.base? = specifiers.filterMap Specifier.base? := by
      match hlist : specifiers.filterMap Specifier.base? with
      | [] => exact (hlist ▸ hbases).eq_nil
      | [base] => exact List.perm_singleton.mp (hlist ▸ hbases)
      | _ :: _ :: _ => simp [hlist] at hbase
    rw [gathered, gathered, base_foldl_add, base_foldl_add, heq]

/-! Reading specifiers. -/

theorem of_ignoredWords : ∀ word ∈ ignoredWords, Word.of word = .ignored := by
  decide

theorem of_builtinWords : ∀ word ∈ builtinWords, Word.of word = .builtin := by
  decide

theorem of_keyword (kind : TagKind) : Word.of kind.keyword = .tag kind := by
  cases kind with
  | enum => decide
  | record kind => cases kind <;> decide

theorem readSpecifiers_cases (found : Specifiers) {specifier : Specifier} (rest : List Token)
    (hbase : specifier.base?.isSome = true → found.base = none) :
    readSpecifiers found (wordTokens specifier.words ++ rest) =
        readSpecifiers (found.add specifier) rest ∨
      (found.words ≠ [] ∧ specifier.base?.isSome = true ∧ ∃ tokens, startsWord tokens = true ∧
        readSpecifiers found (wordTokens specifier.words ++ rest) = .ok (found, tokens)) := by
  have hconst : Word.of "const" = .const := by decide
  have hvolatile : Word.of "volatile" = .volatile := by decide
  cases specifier with
  | const => simp [Specifier.words, wordTokens, readSpecifiers, hconst, Specifiers.add]
  | volatile => simp [Specifier.words, wordTokens, readSpecifiers, hvolatile, Specifiers.add]
  | ignored word h =>
    simp [Specifier.words, wordTokens, readSpecifiers, of_ignoredWords word h, Specifiers.add]
  | builtin word h =>
    simp [Specifier.words, wordTokens, readSpecifiers, of_builtinWords word h, Specifiers.add]
  | tag kind name h =>
    simp [Specifier.words, wordTokens, readSpecifiers, of_keyword, tagName?, Specifiers.add]
  | typedef name h =>
    have hword : Word.of name = .name := by
      simp only [isTypedefName, Bool.and_eq_true, beq_iff_eq] at h
      exact h.2
    have hnone : found.base = none := hbase rfl
    by_cases hwords : found.words = []
    · simp [Specifier.words, wordTokens, readSpecifiers, hword, hnone, hwords, Specifiers.add]
    · exact Or.inr ⟨hwords, rfl, .ident name :: rest, rfl, by
        simp [Specifier.words, wordTokens, readSpecifiers, hword, hnone, hwords]⟩

theorem Specifiers.type_of_conflict {found : Specifiers} (hbase : found.base.isSome = true)
    (hwords : found.words ≠ []) : found.type = .error .conflictingSpecifiers := by
  unfold Specifiers.type
  split <;> simp_all

/-- A name leaves no room for another one. -/
theorem length_bases_add {specifier : Specifier} {specifiers : List Specifier} {found : Specifiers}
    (h : ((specifier :: specifiers).filterMap Specifier.base?).length +
      found.base.toList.length ≤ 1) :
    (specifiers.filterMap Specifier.base?).length +
      (found.add specifier).base.toList.length ≤ 1 := by
  cases specifier <;>
    simp only [List.filterMap_cons, Specifier.base?, List.length_cons] at h <;>
    simp only [Specifiers.add, Option.toList_some, List.length_singleton] <;> omega

/-- A list of specifiers is read as a whole, or else up to a name that is in conflict with words in
front of it. -/
theorem readSpecifiers_written {rest : List Token} (hrest : startsWord rest = false)
    (specifiers : List Specifier) (found : Specifiers)
    (hbase : (specifiers.filterMap Specifier.base?).length + found.base.toList.length ≤ 1) :
    readSpecifiers found (wordTokens (specifiers.flatMap Specifier.words) ++ rest) =
        .ok (specifiers.foldl .add found, rest) ∨
      (specifiers.foldl .add found).type = .error .conflictingSpecifiers ∧
        ∃ found' tokens, startsWord tokens = true ∧
          readSpecifiers found (wordTokens (specifiers.flatMap Specifier.words) ++ rest) =
            .ok (found', tokens) := by
  induction specifiers generalizing found with
  | nil => exact Or.inl (readSpecifiers_stop hrest found)
  | cons specifier specifiers ih =>
    have htokens : wordTokens ((specifier :: specifiers).flatMap Specifier.words) ++ rest =
        wordTokens specifier.words ++
          (wordTokens (specifiers.flatMap Specifier.words) ++ rest) := by
      simp [wordTokens]
    have hfree : specifier.base?.isSome = true → found.base = none := by
      intro hsome
      obtain ⟨base, hbase?⟩ := Option.isSome_iff_exists.mp hsome
      rw [List.filterMap_cons_some hbase?, List.length_cons] at hbase
      cases hfound : found.base with
      | none => rfl
      | some other =>
        rw [hfound, Option.toList_some, List.length_singleton] at hbase
        omega
    rw [htokens]
    rcases readSpecifiers_cases found (wordTokens (specifiers.flatMap Specifier.words) ++ rest)
      hfree with hadd | ⟨hwords, hsome, tokens, hstarts, hread⟩
    · rw [hadd]
      exact ih (found.add specifier) (length_bases_add hbase)
    · refine Or.inr ⟨Specifiers.type_of_conflict ?_ ?_, found, tokens, hstarts, hread⟩
      · obtain ⟨base, hbase?⟩ := Option.isSome_iff_exists.mp hsome
        rw [base_foldl_add, List.filterMap_cons_some hbase?, List.getLast?_cons]
        rfl
      · rw [words_foldl_add]
        simp [hwords]

theorem startsWord_of_reads_suffixes {tokens rest : List Token} {steps : List Step}
    (h : Reads tokens (.suffixes steps) rest) (hrest : endsType rest = true) :
    startsWord tokens = false := by
  cases h with
  | stop => exact startsWord_of_endsType hrest
  | _ => rfl

/-- No declarator begins with a word. -/
theorem startsWord_of_reads_declarator {tokens rest : List Token} {steps : List Step}
    (h : Reads tokens (.declarator steps) rest) (hrest : endsType rest = true) :
    startsWord tokens = false := by
  rw [← Bool.not_eq_true]
  intro hword
  have hpointers : readPointers tokens = ([], tokens) := by
    unfold startsWord at hword
    split at hword
    · simp [readPointers]
    · simp at hword
  cases h with
  | plain head _ tail =>
    obtain ⟨-, rfl⟩ := Prod.mk.inj (hpointers.symm.trans head)
    simp [startsWord_of_reads_suffixes tail hrest] at hword
  | grouped head =>
    obtain ⟨-, rfl⟩ := Prod.mk.inj (hpointers.symm.trans head)
    simp [startsWord] at hword

theorem reads_type_iff {tokens rest : List Token} {type : CType} :
    Reads tokens (.type type) rest ↔
      ∃ base mid steps, specified tokens = .ok (base, mid) ∧ Reads mid (.declarator steps) rest ∧
        applySteps steps base = type := by
  constructor
  · intro h
    cases h with
    | type head tail => exact ⟨_, _, _, head, tail, rfl⟩
  · rintro ⟨base, mid, steps, head, tail, rfl⟩
    exact .type head tail

/-- The type that specifiers and a declarator behind them spell. -/
theorem reads_written_iff {rest : List Token} (hrest : startsWord rest = false)
    {specifiers : List Specifier}
    (hbase : (specifiers.filterMap Specifier.base?).length ≤ 1) {type : CType} :
    Reads (wordTokens (specifiers.flatMap Specifier.words) ++ rest) (.type type) [] ↔
      ∃ base steps, (gathered specifiers).type = .ok base ∧ Reads rest (.declarator steps) [] ∧
        applySteps steps base = type := by
  have hread := readSpecifiers_written hrest specifiers {} (by simpa using hbase)
  rw [reads_type_iff]
  constructor
  · rintro ⟨base, mid, steps, head, tail, rfl⟩
    simp only [specified, except_bind_eq_ok, except_pure_eq_ok, Prod.exists, Prod.mk.injEq] at head
    obtain ⟨found, mid', hfound, _, htype, rfl, rfl⟩ := head
    rcases hread with hread | ⟨_, found', tokens, hstarts, hread⟩
    · obtain ⟨rfl, rfl⟩ : gathered specifiers = found ∧ rest = mid' := by
        simpa [hread, gathered] using hfound
      exact ⟨_, _, htype, tail, rfl⟩
    · obtain ⟨-, rfl⟩ : found' = found ∧ tokens = mid' := by simpa [hread] using hfound
      simp [startsWord_of_reads_declarator tail rfl] at hstarts
  · rintro ⟨base, steps, htype, htail, rfl⟩
    rcases hread with hread | ⟨hconflict, -⟩
    · refine ⟨base, rest, steps, ?_, htail, rfl⟩
      rw [gathered] at htype
      simp only [specified, hread, bind, Except.bind, htype]
      rfl
    · rw [gathered, hconflict] at htype
      cases htype

/-! Texts. -/

theorem isTagName_of_words (specifier : Specifier) : specifier.words.all isTagName = true := by
  have hignored : ∀ word ∈ ignoredWords, isTagName word = true := by decide
  have hbuiltin : ∀ word ∈ builtinWords, isTagName word = true := by decide
  cases specifier with
  | const | volatile => decide
  | ignored word h => simp [Specifier.words, hignored word h]
  | builtin word h => simp [Specifier.words, hbuiltin word h]
  | typedef name h =>
    simp only [isTypedefName, Bool.and_eq_true] at h
    simp [Specifier.words, h.1]
  | tag kind name h =>
    have hkeyword : isTagName kind.keyword = true := by
      cases kind with
      | enum => decide
      | record kind => cases kind <;> decide
    simp [Specifier.words, hkeyword, h]

theorem notMem_of_isTagName {word : String} (h : isTagName word = true) : '(' ∉ word.toList := by
  simp only [isTagName, isName, Bool.and_eq_true] at h
  intro hmem
  split at h
  · simp at h
  · next c rest hlist =>
    rw [hlist] at hmem
    simp only [Bool.and_eq_true, List.all_eq_true] at h
    rcases List.mem_cons.mp hmem with rfl | hmem
    · simp [Text.isNameStart] at h
    · have hpart := h.1.2 _ hmem
      simp [Text.isNamePart] at hpart

theorem notMem_intercalate {words : List String} (h : words.all isTagName = true) :
    '(' ∉ (" ".intercalate words).toList := by
  induction words with
  | nil => simp
  | cons word rest ih =>
    simp only [List.all_cons, Bool.and_eq_true] at h
    cases rest with
    | nil => simpa using notMem_of_isTagName h.1
    | cons next rest =>
      simpa [String.intercalate_cons_cons, notMem_of_isTagName h.1] using ih h.2

theorem tokenize_written (specifiers : List Specifier) {tail : String}
    (htail : tail.toList.head?.any Text.isNamePart = false) :
    tokenize (written specifiers tail).toList =
      (tokenize tail.toList).map (wordTokens (specifiers.flatMap Specifier.words) ++ ·) := by
  have hwords : (specifiers.flatMap Specifier.words).all isTagName = true := by
    simpa using fun specifier _ => isTagName_of_words specifier
  have hspaced : spaced (wordTokens (specifiers.flatMap Specifier.words)) =
      (" ".intercalate (specifiers.flatMap Specifier.words)).toList := by
    simp [spaced, wordTokens, Function.comp_def, Token.text]
  have hfront := tokenize_spaced (wordTokens_plain hwords)
  rw [hspaced] at hfront
  rw [written, String.toList_append]
  exact tokenize_append hfront (.of_notMem (notMem_intercalate hwords) htail)

theorem parse_written_iff {specifiers : List Specifier} {tail : String}
    (hbase : (specifiers.filterMap Specifier.base?).length ≤ 1)
    (hapart : tail.toList.head?.any Text.isNamePart = false)
    (hword : ∀ tokens, tokenize tail.toList = .ok tokens → startsWord tokens = false)
    {type : CType} :
    parse (written specifiers tail) = .ok type ↔
      ∃ tokens base steps, tokenize tail.toList = .ok tokens ∧
        (gathered specifiers).type = .ok base ∧ Reads tokens (.declarator steps) [] ∧
        applySteps steps base = type := by
  rw [parse_eq_ok_iff, tokenize_written specifiers hapart]
  constructor
  · rintro ⟨_, htokens, hreads⟩
    obtain ⟨tokens, htail, rfl⟩ := except_map_eq_ok.mp htokens
    obtain ⟨base, steps, h⟩ := (reads_written_iff (hword tokens htail) hbase).mp hreads
    exact ⟨tokens, base, steps, htail, h⟩
  · rintro ⟨tokens, base, steps, htail, h⟩
    exact ⟨_, except_map_eq_ok.mpr ⟨tokens, htail, rfl⟩,
      (reads_written_iff (hword tokens htail) hbase).mpr ⟨base, steps, h⟩⟩

theorem parse_written_of_perm {specifiers order : List Specifier} {tail : String}
    (hbase : (specifiers.filterMap Specifier.base?).length ≤ 1)
    (hapart : tail.toList.head?.any Text.isNamePart = false)
    (hword : ∀ tokens, tokenize tail.toList = .ok tokens → startsWord tokens = false)
    (horder : order.Perm specifiers) {type : CType}
    (h : parse (written specifiers tail) = .ok type) : parse (written order tail) = .ok type := by
  have hbase' : (order.filterMap Specifier.base?).length ≤ 1 := by
    rwa [(horder.filterMap Specifier.base?).length_eq]
  obtain ⟨tokens, base, steps, htail, htype, h⟩ := (parse_written_iff hbase hapart hword).mp h
  exact (parse_written_iff hbase' hapart hword).mpr
    ⟨tokens, base, steps, htail, (gathered_alike horder hbase).type_eq_ok htype, h⟩

theorem parse_written_of_perm_of_error {specifiers order : List Specifier} {tail : String}
    {failure : ParseFailure}
    (hbase : (specifiers.filterMap Specifier.base?).length ≤ 1)
    (hapart : tail.toList.head?.any Text.isNamePart = false)
    (hword : ∀ tokens, tokenize tail.toList = .ok tokens → startsWord tokens = false)
    (horder : order.Perm specifiers) (h : parse (written specifiers tail) = .error failure) :
    ∃ other, parse (written order tail) = .error other := by
  cases hparse : parse (written order tail) with
  | error other => exact ⟨other, rfl⟩
  | ok type =>
    have hbase' : (order.filterMap Specifier.base?).length ≤ 1 := by
      rwa [(horder.filterMap Specifier.base?).length_eq]
    have hback := parse_written_of_perm hbase' hapart hword horder.symm hparse
    rw [h] at hback
    cases hback

/-- Specifiers with at most one name among them, and a text behind them whose first token is not a
word: either they spell one type in every order, or none in any. The text may stand right behind the
last specifier, unless it begins with a character that would be a part of that word. -/
theorem parse_written_perm (specifiers : List Specifier)
    (hbase : (specifiers.filterMap Specifier.base?).length ≤ 1) (gap tail : String)
    (hgap : gap = " " ∨ gap = "" ∧ tail.toList.head?.any Text.isNamePart = false)
    (hword : ∀ tokens, tokenize tail.toList = .ok tokens → startsWord tokens = false) :
    (∃ type, ∀ order, order.Perm specifiers → parse (written order (gap ++ tail)) = .ok type) ∨
      ∀ order, order.Perm specifiers →
        ∃ failure, parse (written order (gap ++ tail)) = .error failure := by
  have hapart : (gap ++ tail).toList.head?.any Text.isNamePart = false := by
    rcases hgap with rfl | ⟨rfl, hapart⟩
    · simp [Text.isNamePart]
    · rwa [String.empty_append]
  have hword' : ∀ tokens, tokenize (gap ++ tail).toList = .ok tokens →
      startsWord tokens = false := by
    rcases hgap with rfl | ⟨rfl, -⟩
    · have hblank : tokenize (" " ++ tail).toList = tokenize tail.toList := by
        rw [String.toList_append]
        exact tokenize_blank (Or.inl rfl)
      rwa [hblank]
    · rwa [String.empty_append]
  cases hparse : parse (written specifiers (gap ++ tail)) with
  | ok type =>
    exact Or.inl ⟨type, fun order horder =>
      parse_written_of_perm hbase hapart hword' horder hparse⟩
  | error failure =>
    exact Or.inr fun order horder =>
      parse_written_of_perm_of_error hbase hapart hword' horder hparse

/-- The specifiers of `unsigned long const restrict long`. -/
def wideSpecifiers : List Specifier :=
  [.builtin "unsigned" (by decide), .builtin "long" (by decide), .const,
    .ignored "restrict" (by decide), .builtin "long" (by decide)]

theorem parse_written_perm_wide :
    (wideSpecifiers.filterMap Specifier.base?).length ≤ 1 ∧
      ∃ type, ∀ order, order.Perm wideSpecifiers →
        parse (written order ("" ++ "*[4]")) = .ok type := by
  have htail : tokenize "*[4]".toList = .ok [.star, .lbracket, .number 4, .rbracket] := by
    decide +kernel
  have hword : ∀ tokens, tokenize "*[4]".toList = .ok tokens → startsWord tokens = false := by
    intro tokens htokens
    obtain rfl := Except.ok.inj (htail.symm.trans htokens)
    rfl
  have hparse : (parse (written wideSpecifiers ("" ++ "*[4]"))).isOk = true := by
    decide +kernel
  have hbase : (wideSpecifiers.filterMap Specifier.base?).length ≤ 1 := by decide
  refine ⟨hbase, ?_⟩
  rcases parse_written_perm wideSpecifiers hbase "" "*[4]" (Or.inr ⟨rfl, by decide⟩) hword with
    htype | hnone
  · exact htype
  · obtain ⟨failure, hfailure⟩ := hnone wideSpecifiers (List.Perm.refl _)
    rw [hfailure] at hparse
    cases hparse

end HeaderInterop.CType
