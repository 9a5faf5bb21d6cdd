import HeaderInterop.Proofs.Macro.Boundaries
import HeaderInterop.Proofs.Macro.Numbers
import Mathlib.Data.List.Chain

/-!
A text and its tokens. The tokens are all of the text but the blanks around them, each as long as it
can be, and they are found again in their own text with a blank between them.
-/

namespace HeaderInterop.Macro

/-- A text that is one token. -/
def IsToken : List Char → Prop
  | [] => False
  | c :: tail => Text.isBlank c = false ∧ tokenTail c tail = (tail, [])

/-- The tokens of a text. Blanks are passed over, and a token ends in front of a character that it
does not take in. -/
inductive Lexes : List Char → List (List Char) → Prop where
  | nil : Lexes [] []
  | blank {c : Char} {rest : List Char} {tokens : List (List Char)} (hblank : Text.isBlank c = true)
      (hrest : Lexes rest tokens) : Lexes (c :: rest) tokens
  | token {token rest : List Char} {tokens : List (List Char)} (htoken : IsToken token)
      (hapart : IsApart token rest) (hrest : Lexes rest tokens) :
      Lexes (token ++ rest) (token :: tokens)

theorem pieces_blank {c : Char} (hblank : Text.isBlank c = true) (rest : List Char) :
    pieces (c :: rest) = pieces rest := by
  rw [pieces, if_pos hblank]

theorem pieces_token {c : Char} (hblank : Text.isBlank c = false) (rest : List Char) :
    pieces (c :: rest) = (c :: (tokenTail c rest).1) :: pieces (tokenTail c rest).2 := by
  rw [pieces, hblank, if_neg Bool.false_ne_true]

/-- A token in front of a text is the first token of both together exactly when the text stands
apart from it. -/
theorem pieces_append_iff {token rest : List Char} {tokens : List (List Char)}
    (htoken : IsToken token) :
    pieces (token ++ rest) = token :: tokens ↔ IsApart token rest ∧ pieces rest = tokens := by
  cases token with
  | nil => exact htoken.elim
  | cons c tail =>
    obtain ⟨hblank, htail⟩ := htoken
    rw [List.cons_append, pieces_token hblank, ← tokenTail_append_iff htail rest]
    constructor
    · intro h
      obtain ⟨hfirst, hrest⟩ := List.cons.inj h
      have htake : (tokenTail c (tail ++ rest)).1 = tail := (List.cons.inj hfirst).2
      have hleave : (tokenTail c (tail ++ rest)).2 = rest := by
        have hall := tokenTail_append c (tail ++ rest)
        rw [htake] at hall
        exact List.append_cancel_left hall
      exact ⟨Prod.ext htake hleave, hleave ▸ hrest⟩
    · rintro ⟨happend, rfl⟩
      rw [happend]

theorem lexes_pieces (text : List Char) : Lexes text (pieces text) := by
  fun_induction pieces text with
  | case1 => exact Lexes.nil
  | case2 c rest hblank ih => exact Lexes.blank hblank ih
  | case3 c rest hblank hle ih =>
    have hself := tokenTail_self c rest
    have hsplit := tokenTail_append c rest
    have hapart : IsApart (c :: (tokenTail c rest).1) (tokenTail c rest).2 := by
      rw [← tokenTail_append_iff hself, hsplit]
    have htoken : IsToken (c :: (tokenTail c rest).1) := ⟨Bool.eq_false_iff.mpr hblank, hself⟩
    have hlexes := Lexes.token htoken hapart ih
    rwa [List.cons_append, hsplit] at hlexes

theorem lexes_iff {text : List Char} {tokens : List (List Char)} :
    Lexes text tokens ↔ pieces text = tokens := by
  constructor
  · intro h
    induction h with
    | nil => rw [pieces]
    | blank hblank _ ih => rw [pieces_blank hblank, ih]
    | token htoken hapart _ ih => exact (pieces_append_iff htoken).mpr ⟨hapart, ih⟩
  · rintro rfl
    exact lexes_pieces text

theorem isToken_of_mem_pieces {text token : List Char} (hmem : token ∈ pieces text) :
    IsToken token := by
  have hlexes := lexes_pieces text
  generalize pieces text = tokens at hlexes hmem
  induction hlexes with
  | nil => cases hmem
  | blank _ _ ih => exact ih hmem
  | token htoken _ _ ih =>
    rcases List.mem_cons.mp hmem with rfl | hrest
    · exact htoken
    · exact ih hrest

/-- Tokens without anything between them are read as they were exactly when none of them takes in
the first character of the next. -/
theorem pieces_flatten_iff {tokens : List (List Char)} (htokens : ∀ token ∈ tokens, IsToken token) :
    pieces tokens.flatten = tokens ↔ tokens.IsChain IsApart := by
  induction tokens with
  | nil => simp [pieces]
  | cons token rest ih =>
    obtain ⟨htoken, hrest⟩ := List.forall_mem_cons.mp htokens
    rw [List.flatten_cons, pieces_append_iff htoken, ih hrest]
    cases rest with
    | nil => simp [isApart_nil]
    | cons next rest =>
      have hapart : IsApart token (next :: rest).flatten ↔ IsApart token next := by
        cases next with
        | nil => exact (hrest [] List.mem_cons_self).elim
        | cons c tail => rw [List.flatten_cons, List.cons_append, isApart_cons, isApart_cons]
      rw [hapart, List.isChain_cons_cons]

/-! The text as its tokens, and the tokens as a text. -/

/-- The text of tokens, each with what is behind it. -/
def spelled (parts : List (String × List Char)) : List Char :=
  parts.flatMap fun part => part.1.toList ++ part.2

/-- A text as its first blanks, and tokens each with the blanks behind it. -/
structure IsSplit (text gap : List Char) (parts : List (String × List Char)) : Prop where
  text_eq : text = gap ++ spelled parts
  isBlank_first : gap.all Text.isBlank = true
  isBlank_behind : ∀ part ∈ parts, part.2.all Text.isBlank = true
  starts : ∀ part ∈ parts, ∃ c ∈ part.1.toList.head?, Text.isBlank c = false
  /-- No token could have been longer. -/
  longest : ∀ front part back, parts = front ++ part :: back →
    IsApart part.1.toList (part.2 ++ spelled back)

theorem Lexes.exists_isSplit {text : List Char} {tokens : List (List Char)}
    (h : Lexes text tokens) :
    ∃ gap parts, IsSplit text gap parts ∧ parts.map Prod.fst = tokens.map String.ofList := by
  induction h with
  | nil =>
    refine ⟨[], [], ⟨rfl, rfl, List.forall_mem_nil _, List.forall_mem_nil _, ?_⟩, rfl⟩
    intro front part back hparts
    simp at hparts
  | @blank c rest tokens hblank _ ih =>
    obtain ⟨gap, parts, hsplit, htokens⟩ := ih
    have htext : c :: rest = c :: gap ++ spelled parts := by rw [hsplit.text_eq, List.cons_append]
    have hgap : (c :: gap).all Text.isBlank = true := by
      rw [List.all_cons, hblank, hsplit.isBlank_first, Bool.and_self]
    exact ⟨c :: gap, parts,
      ⟨htext, hgap, hsplit.isBlank_behind, hsplit.starts, hsplit.longest⟩, htokens⟩
  | @token token rest tokens htoken hapart _ ih =>
    obtain ⟨gap, parts, hsplit, htokens⟩ := ih
    have hspelled : spelled ((String.ofList token, gap) :: parts) = token ++ rest := by
      rw [hsplit.text_eq]
      simp [spelled]
    refine ⟨[], (String.ofList token, gap) :: parts, ⟨hspelled.symm, rfl, ?_, ?_, ?_⟩, ?_⟩
    · exact List.forall_mem_cons.mpr ⟨hsplit.isBlank_first, hsplit.isBlank_behind⟩
    · refine List.forall_mem_cons.mpr ⟨?_, hsplit.starts⟩
      cases token with
      | nil => exact htoken.elim
      | cons c tail => exact ⟨c, by simp, htoken.1⟩
    · intro front part back hparts
      cases front with
      | nil =>
        obtain ⟨rfl, rfl⟩ := List.cons.inj hparts
        rwa [String.toList_ofList, ← hsplit.text_eq]
      | cons _ front => exact hsplit.longest front part back (List.cons.inj hparts).2
    · rw [List.map_cons, List.map_cons, htokens]

/-- A token that does not take in some character does not take in a blank. -/
theorem absorbs_space {token : List Char} {next : Char} (h : absorbs token next = false) :
    absorbs token ' ' = false := by
  cases token with
  | nil => rfl
  | cons c tail =>
    rw [absorbs_cons] at h ⊢
    split
    next hquote => rwa [if_pos hquote] at h
    next =>
      split
      next => simp [continuesNumber]
      next =>
        split
        next => decide
        next => simp [pairs]

theorem Lexes.intercalate {text : List Char} {tokens : List (List Char)} (h : Lexes text tokens) :
    Lexes ([' '].intercalate tokens) tokens := by
  induction h with
  | nil => exact Lexes.nil
  | blank _ _ ih => exact ih
  | @token token rest tokens htoken hapart hrest ih =>
    cases tokens with
    | nil =>
      have hlone := Lexes.token htoken (isApart_nil token) Lexes.nil
      rw [List.append_nil] at hlone
      rwa [List.intercalate_singleton]
    | cons second tokens =>
      cases rest with
      | nil =>
        have hnone := lexes_iff.mp hrest
        rw [pieces] at hnone
        cases hnone
      | cons next rest =>
        have hspace : IsApart token (' ' :: [' '].intercalate (second :: tokens)) :=
          isApart_cons.mpr (absorbs_space (isApart_cons.mp hapart))
        have hboth := Lexes.token htoken hspace (Lexes.blank (by decide) ih)
        rwa [List.intercalate_cons_cons, List.append_assoc]

/-- The tokens of a text are all of it but the blanks around them, none of them could have been
longer, and they are the tokens of their own text with a blank between them. -/
theorem tokenize_isSplit (text : String) :
    (∃ gap parts, IsSplit text.toList gap parts ∧ parts.map Prod.fst = tokenize text) ∧
      tokenize (" ".intercalate (tokenize text)) = tokenize text := by
  have hlexes := lexes_pieces text.toList
  refine ⟨hlexes.exists_isSplit, ?_⟩
  have hspaced : (" ".intercalate (tokenize text)).toList =
      [' '].intercalate (pieces text.toList) := by
    rw [tokenize, String.toList_intercalate]
    simp [Function.comp_def]
  rw [tokenize, hspaced, lexes_iff.mp hlexes.intercalate]
  rfl

example : tokenize "x = \"a\\" = ["x", "=", "\"a\\"] := by cbv

end HeaderInterop.Macro
