import HeaderInterop.Proofs.CType.Seams
import HeaderInterop.Proofs.Text.Positions

/-!
The tokenizer by positions. Here a type's text is read at positions in its bytes, as a program does
that keeps one index: a parenthesis is searched by counting bytes, a run of characters ends where
its bytes do, and each text that is taken is cut out between two positions. No step of this is a
breach, whatever characters the text has, and the tokens are those of the tokenizer.
-/

namespace HeaderInterop.CType

open Scan

/-! The closing parenthesis. -/

/-- The position of the parenthesis that closes the last of the open groups, in bytes that start at
position `i`. -/
def closing? (i depth : Nat) : List UInt8 → Except Breach (Option Nat)
  | [] => .ok none
  | byte :: rest =>
    if Char.ofUInt8 byte = '(' then closing? (i + 1) (depth + 1) rest
    else if Char.ofUInt8 byte = ')' then
      match minus depth 1 with
      | .error breach => .error breach
      | .ok 0 => .ok (some i)
      | .ok outer => closing? (i + 1) outer rest
    else closing? (i + 1) depth rest

def matchingParen (text : List Char) (start : Nat) : Except Breach (Option Nat) :=
  closing? start 0 ((bytes text).drop start)

def isParen (c : Char) : Bool :=
  c == '(' || c == ')'

theorem onlyAscii_isParen : OnlyAscii isParen := by
  intro c hc
  rcases Bool.or_eq_true_iff.mp hc with h | h
  all_goals
    rw [beq_iff_eq.mp h]
    decide

theorem closing?_append_of_forall {skipped : List UInt8}
    (h : ∀ byte ∈ skipped, isParen (Char.ofUInt8 byte) = false) (i depth : Nat)
    (rest : List UInt8) :
    closing? i depth (skipped ++ rest) = closing? (i + skipped.length) depth rest := by
  induction skipped generalizing i with
  | nil => rfl
  | cons byte skipped ih =>
    obtain ⟨hbyte, hskipped⟩ := List.forall_mem_cons.mp h
    simp only [isParen, Bool.or_eq_false_iff, beq_eq_false_iff_ne] at hbyte
    rw [List.cons_append, closing?, if_neg hbyte.1, if_neg hbyte.2, ih hskipped]
    simp only [List.length_cons]
    congr 1
    omega

theorem closing?_open (i depth : Nat) (rest : List Char) :
    closing? i depth (bytes ('(' :: rest)) = closing? (i + 1) (depth + 1) (bytes rest) :=
  rfl

/-- Where a group is open, the count of open groups is not zero at any closing parenthesis, and what
is found is the end of the group. -/
theorem closing?_bytes (i depth : Nat) (body : List Char) :
    closing? i (depth + 1) (bytes body) =
      .ok ((splitGroup depth body).map fun parts => i + byteLength parts.1) := by
  induction body generalizing i depth with
  | nil => rfl
  | cons c rest ih =>
    have hmap (found : Option (List Char × List Char)) :
        (found.map fun parts => i + c.utf8Size + byteLength parts.1) =
          (found.map (Prod.map (c :: ·) id)).map fun parts => i + byteLength parts.1 := by
      cases found <;> simp [byteLength_cons, Nat.add_assoc]
    rw [splitGroup_cons, depthBehind]
    by_cases hopen : c = '('
    · subst hopen
      rw [closing?_open, ih, if_neg (by simp), if_pos rfl]
      exact congrArg _ (hmap _)
    · by_cases hclose : c = ')'
      · subst hclose
        cases depth with
        | zero => rfl
        | succ outer =>
          rw [if_neg (by simp), if_neg hopen, if_pos rfl, Nat.add_sub_cancel, ← hmap, ← ih]
          rfl
      · have hskip : ∀ byte ∈ String.utf8EncodeChar c, isParen (Char.ofUInt8 byte) = false := by
          rcases onlyAscii_isParen.utf8EncodeChar c with ⟨byte, hbytes, hbyte⟩ | ⟨-, hnone⟩
          · simp [hbytes, hbyte, isParen, hopen, hclose]
          · exact hnone
        rw [bytes_cons, closing?_append_of_forall hskip, String.length_utf8EncodeChar, ih,
          if_neg (by simp [hclose]), if_neg hopen, if_neg hclose]
        exact congrArg _ (hmap _)

theorem matchingParen_append (front body : List Char) :
    matchingParen (front ++ '(' :: body) (byteLength front) =
      .ok ((splitGroup 0 body).map fun parts => byteLength (front ++ '(' :: parts.1)) := by
  rw [matchingParen, drop_bytes, closing?_open, closing?_bytes]
  cases splitGroup 0 body with
  | none => rfl
  | some parts =>
    simp only [Option.map_some, byteLength_append, byteLength_cons, Nat.add_assoc]
    rfl

/-- Called where no group is open, the search counts below zero. -/
example : matchingParen [')'] 0 = .error .underflow := rfl

/-! One round. -/

/-- What a round of the scan does: it finds a fault, or goes on from a position, with a token in
front of it or none. -/
inductive Round where
  | fail (fault : Fault)
  | next (token? : Option Token) (position : Nat)

def phraseRound (text : List Char) (i : Nat) : Except Breach Round := do
  let rest ← sliceFrom text (i + 1)
  if opensAnonymous rest then
    match ← matchingParen text i with
    | none => return .fail .unterminatedAnonymous
    | some stop =>
      let phrase ← sliceText text (i + 1) stop
      return .next (some (.anonymous (String.ofList phrase))) (stop + 1)
  else return .next (some .lparen) (i + 1)

def numberRound (text : List Char) (i : Nat) : Except Breach Round := do
  let stop := runStop (fun byte => (Char.ofUInt8 byte).isDigit) (bytes text) i
  let digits ← sliceText text i stop
  match Text.unsigned? Text.maxUInt64 digits with
  | none => return .fail .sizeTooLarge
  | some value => return .next (some (.number value)) stop

/-- The end of the round at an attribute, whose arguments are to start at position `start`. -/
def argumentsRound (text : List Char) (start : Nat) : Except Breach Round :=
  if (bytes text)[start]?.map Char.ofUInt8 = some '(' then do
    match ← matchingParen text start with
    | none => return .fail .unterminatedAttribute
    | some last => return .next none (last + 1)
  else return .fail .malformedAttribute

/-- The round at an attribute, whose word ends at `stop`. The white space behind it is as many bytes
as trimming takes away. -/
def attributeRound (text : List Char) (stop : Nat) : Except Breach Round := do
  let rest ← sliceFrom text stop
  let blanks ← minus (byteLength rest) (byteLength (Text.trimStart rest))
  argumentsRound text (stop + blanks)

def wordRound (text : List Char) (i : Nat) : Except Breach Round := do
  let stop := runStop (fun byte => Text.isNamePart (Char.ofUInt8 byte)) (bytes text) i
  let word ← sliceText text i stop
  if String.ofList word = attributeWord then attributeRound text stop
  else return .next (some (.ident (String.ofList word))) stop

def otherRound (text : List Char) (i : Nat) : Except Breach Round := do
  let rest ← sliceFrom text i
  if "...".toList.isPrefixOf rest then return .next (some .ellipsis) (i + 3)
  else return .fail (.unexpectedCharacter (rest.headD '?'))

/-- The round at position `i`, whose byte is `c`. -/
def roundAt (text : List Char) (i : Nat) (c : Char) : Except Breach Round :=
  if c = ' ' ∨ c = '\t' then .ok (.next none (i + 1))
  else if c = '(' then phraseRound text i
  else
    match punctuation? c with
    | some token => .ok (.next (some token) (i + 1))
    | none =>
      if c.isDigit then numberRound text i
      else if Text.isNameStart c then wordRound text i
      else otherRound text i

/-- The tokens of a text from position `i` on. -/
def scanFrom (text : List Char) (i : Nat) : Except Breach (Except Fault (List Token)) :=
  if h : i < (bytes text).length then
    match roundAt text i (Char.ofUInt8 (bytes text)[i]) with
    | .error breach => .error breach
    | .ok (.fail fault) => .ok (.error fault)
    | .ok (.next token? position) =>
      if i < position then
        (scanFrom text position).map fun tokens => tokens.map (token?.toList ++ ·)
      else .error .standstill
  else .ok (.ok [])
  termination_by (bytes text).length - i

def scan (text : List Char) : Except Breach (Except Fault (List Token)) :=
  scanFrom text 0

/-! The faults of the tokenizer. -/

section Faults

variable {c : Char} {rest : List Char}

theorem tokenize_unterminated (hopens : opensAnonymous rest = true)
    (hsplit : splitGroup 0 rest = none) :
    tokenize ('(' :: rest) = .error .unterminatedAnonymous := by
  rw [tokenize, if_neg (by decide), if_pos rfl, if_pos hopens]
  split
  next => rfl
  next h => simp [hsplit] at h

theorem tokenize_tooLarge (hc : c.isDigit = true)
    (hvalue : Text.unsigned? Text.maxUInt64 (c :: rest.takeWhile Char.isDigit) = none) :
    tokenize (c :: rest) = .error .sizeTooLarge := by
  obtain ⟨hblank, hparen, hdot⟩ := isDigit_ordinary hc
  rw [tokenize]
  simp [hblank, hparen, hdot, hc, hvalue, List.isPrefixOf]

section Attribute

variable (hstart : Text.isNameStart c = true)
  (hword : String.ofList (c :: rest.takeWhile Text.isNamePart) = attributeWord)
include hstart hword

theorem tokenize_malformed
    (hbody : (Text.trimStart (rest.dropWhile Text.isNamePart)).head? ≠ some '(') :
    tokenize (c :: rest) = .error .malformedAttribute := by
  rw [tokenize_attributeWord hstart hword]
  unfold afterAttribute
  split
  next hother => simp [hother] at hbody
  next => rfl

theorem tokenize_unterminatedAttribute {body : List Char}
    (hbody : Text.trimStart (rest.dropWhile Text.isNamePart) = '(' :: body)
    (hsplit : splitGroup 0 body = none) :
    tokenize (c :: rest) = .error .unterminatedAttribute := by
  rw [tokenize_attributeWord hstart hword, hbody, afterAttribute, hsplit]

end Attribute

/-- A character that no token starts with, the three dots apart. -/
structure IsOther (c : Char) : Prop where
  not_blank : ¬ (c = ' ' ∨ c = '\t')
  ne_paren : c ≠ '('
  punctuation?_eq : punctuation? c = none
  isDigit_eq : c.isDigit = false
  isNameStart_eq : Text.isNameStart c = false

theorem IsOther.of_gt (h : 127 < c.toNat) : IsOther c where
  not_blank := by rintro (rfl | rfl) <;> exact absurd h (by decide)
  ne_paren := by rintro rfl; exact absurd h (by decide)
  punctuation?_eq := by
    unfold punctuation?
    split
    all_goals first | rfl | exact absurd h (by decide)
  isDigit_eq := onlyAscii_isDigit.eq_false h
  isNameStart_eq := by
    have hpart := onlyAscii_isNamePart.eq_false h
    rw [← Bool.not_eq_true] at hpart ⊢
    exact fun hstart => hpart (Text.isNamePart_of_isNameStart hstart)

theorem tokenize_unexpected (hc : IsOther c) (hdots : "...".toList.isPrefixOf (c :: rest) = false) :
    tokenize (c :: rest) = .error (.unexpectedCharacter c) := by
  rw [tokenize, if_neg hc.not_blank, if_neg hc.ne_paren, hdots, hc.isDigit_eq, hc.isNameStart_eq,
    if_neg Bool.false_ne_true, if_neg Bool.false_ne_true, if_neg Bool.false_ne_true,
    hc.punctuation?_eq]

end Faults

/-! What a round reads. -/

/-- What a round found is what the tokenizer finds at the start of the text that is left there. -/
inductive Round.Reads (front text : List Char) : Round → Prop where
  | fail {fault : Fault} (h : tokenize text = .error fault) : Reads front text (.fail fault)
  | next {token? : Option Token} {position : Nat} (read back : List Char)
    (htext : text = read ++ back) (hread : read ≠ [])
    (hposition : position = byteLength (front ++ read))
    (h : tokenize text = (tokenize back).map (token?.toList ++ ·)) :
    Reads front text (.next token? position)

/-- A round that is no breach, and reads what the tokenizer does. -/
def Follows (front text : List Char) (result : Except Breach Round) : Prop :=
  ∃ round, result = .ok round ∧ round.Reads front text

section Rounds

variable (front : List Char) {c : Char} (rest : List Char)

theorem follows_phraseRound :
    Follows front ('(' :: rest) (phraseRound (front ++ '(' :: rest) (byteLength front)) := by
  have hopen : byteLength front + 1 = byteLength (front ++ ['(']) :=
    (byteLength_concat rfl front).symm
  have hfrom : sliceFrom (front ++ '(' :: rest) (byteLength front + 1) = .ok rest := by
    rw [hopen, List.append_cons]
    exact sliceFrom_append _ rest
  cases hopens : opensAnonymous rest with
  | false =>
    refine ⟨.next (some .lparen) (byteLength front + 1), ?_, ?_⟩
    · simp [phraseRound, hfrom, hopens]
    · exact .next _ _ rfl (List.cons_ne_nil '(' []) hopen (tokenize_lparen hopens)
  | true =>
    cases hsplit : splitGroup 0 rest with
    | none =>
      have hmatching : matchingParen (front ++ '(' :: rest) (byteLength front) = .ok none := by
        rw [matchingParen_append, hsplit]
        rfl
      refine ⟨.fail .unterminatedAnonymous, ?_, .fail (tokenize_unterminated hopens hsplit)⟩
      simp [phraseRound, hfrom, hopens, hmatching]
    | some parts =>
      obtain ⟨inside, after⟩ := parts
      have hrest := splitGroup_eq_some hsplit
      have hmatching : matchingParen (front ++ '(' :: rest) (byteLength front) =
          .ok (some (byteLength (front ++ '(' :: inside))) := by
        rw [matchingParen_append, hsplit]
        rfl
      have hphrase : sliceText (front ++ '(' :: rest) (byteLength front + 1)
          (byteLength (front ++ '(' :: inside)) = .ok inside := by
        have hcut := sliceText_append (front ++ ['(']) inside (')' :: after)
        rwa [← hopen, List.append_assoc, ← hrest, ← List.append_cons, ← List.append_cons] at hcut
      refine ⟨.next (some (.anonymous (String.ofList inside)))
        (byteLength (front ++ '(' :: inside) + 1), ?_, ?_⟩
      · simp [phraseRound, hfrom, hopens, hmatching, hphrase]
      · refine .next ('(' :: inside ++ [')']) after (by simp [hrest]) (by simp) ?_
          (tokenize_anonymous hopens hsplit)
        rw [← List.append_assoc, byteLength_concat rfl]

theorem follows_numberRound (hc : c.isDigit = true) :
    Follows front (c :: rest) (numberRound (front ++ c :: rest) (byteLength front)) := by
  have hstop := runStop_bytes onlyAscii_isDigit front (c :: rest)
  have hdigits := sliceText_takeWhile Char.isDigit front (c :: rest)
  rw [List.takeWhile_cons_of_pos hc] at hstop hdigits
  cases hvalue : Text.unsigned? Text.maxUInt64 (c :: rest.takeWhile Char.isDigit) with
  | none =>
    refine ⟨.fail .sizeTooLarge, ?_, .fail (tokenize_tooLarge hc hvalue)⟩
    simp [numberRound, hstop, hdigits, hvalue]
  | some value =>
    refine ⟨.next (some (.number value))
      (byteLength (front ++ c :: rest.takeWhile Char.isDigit)), ?_, ?_⟩
    · simp [numberRound, hstop, hdigits, hvalue]
    · exact .next _ _ (by simp) (List.cons_ne_nil _ _) rfl (tokenize_digits hc hvalue)

theorem minus_trimStart (rest : List Char) :
    minus (byteLength rest) (byteLength (Text.trimStart rest)) =
      .ok (byteLength (rest.takeWhile Text.isBlank)) := by
  have hsum : byteLength rest =
      byteLength (rest.takeWhile Text.isBlank) + byteLength (Text.trimStart rest) := by
    rw [← byteLength_append, Text.trimStart, List.takeWhile_append_dropWhile]
  rw [hsum, minus_add]

theorem argumentsRound_of_ne (h : rest.head? ≠ some '(') :
    argumentsRound (front ++ rest) (byteLength front) = .ok (.fail .malformedAttribute) := by
  rw [argumentsRound, getElem?_bytes, if_neg fun hbyte => h ?_]
  · rfl
  · exact (head?_bytes_eq_some_iff (by decide)).mp hbyte

theorem argumentsRound_paren (body : List Char) :
    argumentsRound (front ++ '(' :: body) (byteLength front) =
      .ok (match splitGroup 0 body with
        | none => .fail .unterminatedAttribute
        | some parts => .next none (byteLength (front ++ '(' :: parts.1) + 1)) := by
  have hbyte : (bytes ('(' :: body)).head?.map Char.ofUInt8 = some '(' := rfl
  rw [argumentsRound, getElem?_bytes, if_pos hbyte, matchingParen_append]
  cases splitGroup 0 body <;> rfl

theorem attributeRound_append (front rest : List Char) :
    attributeRound (front ++ rest) (byteLength front) =
      argumentsRound (front ++ rest.takeWhile Text.isBlank ++ Text.trimStart rest)
        (byteLength (front ++ rest.takeWhile Text.isBlank)) := by
  have htext : front ++ rest =
      front ++ rest.takeWhile Text.isBlank ++ Text.trimStart rest := by
    rw [List.append_assoc, Text.trimStart, List.takeWhile_append_dropWhile]
  rw [attributeRound, sliceFrom_append, byteLength_append, ← htext]
  simp only [bind, Except.bind, minus_trimStart]

theorem follows_attributeRound (hstart : Text.isNameStart c = true)
    (hword : String.ofList (c :: rest.takeWhile Text.isNamePart) = attributeWord) :
    Follows front (c :: rest) (attributeRound (front ++ c :: rest)
      (byteLength (front ++ c :: rest.takeWhile Text.isNamePart))) := by
  let behind := rest.dropWhile Text.isNamePart
  let start := front ++ c :: rest.takeWhile Text.isNamePart
  have htext : front ++ c :: rest = start ++ behind := by simp [start, behind]
  have htrim : behind.takeWhile Text.isBlank ++ Text.trimStart behind = behind :=
    List.takeWhile_append_dropWhile
  rw [htext, attributeRound_append]
  by_cases hparen : (Text.trimStart behind).head? = some '('
  · obtain ⟨body, hbody⟩ := List.head?_eq_some_iff.mp hparen
    rw [hbody, argumentsRound_paren]
    refine ⟨_, rfl, ?_⟩
    cases hsplit : splitGroup 0 body with
    | none => exact .fail (tokenize_unterminatedAttribute hstart hword hbody hsplit)
    | some parts =>
      obtain ⟨inside, after⟩ := parts
      rw [hbody, splitGroup_eq_some hsplit] at htrim
      have hread := congrArg (c :: rest.takeWhile Text.isNamePart ++ ·) htrim.symm
      refine .next (c :: (rest.takeWhile Text.isNamePart ++
        (behind.takeWhile Text.isBlank ++ '(' :: inside ++ [')']))) after ?_
        (List.cons_ne_nil _ _) ?_ ?_
      · simpa [behind] using hread
      · rw [← byteLength_concat (c := ')') rfl]
        simp [start]
      · rw [tokenize_attribute hstart hword hbody hsplit]
        exact (congrFun Except.map_id _).symm
  · rw [argumentsRound_of_ne _ _ hparen]
    exact ⟨_, rfl, .fail (tokenize_malformed hstart hword hparen)⟩

theorem follows_wordRound (hstart : Text.isNameStart c = true) :
    Follows front (c :: rest) (wordRound (front ++ c :: rest) (byteLength front)) := by
  have hpart := Text.isNamePart_of_isNameStart hstart
  have hstop := runStop_bytes onlyAscii_isNamePart front (c :: rest)
  have hcut := sliceText_takeWhile Text.isNamePart front (c :: rest)
  rw [List.takeWhile_cons_of_pos hpart] at hstop hcut
  by_cases hword : String.ofList (c :: rest.takeWhile Text.isNamePart) = attributeWord
  · have hround : wordRound (front ++ c :: rest) (byteLength front) =
        attributeRound (front ++ c :: rest)
          (byteLength (front ++ c :: rest.takeWhile Text.isNamePart)) := by
      simp only [wordRound, hstop, hcut, bind, Except.bind, if_pos hword]
    rw [hround]
    exact follows_attributeRound front rest hstart hword
  · refine ⟨.next (some (.ident (String.ofList (c :: rest.takeWhile Text.isNamePart))))
      (byteLength (front ++ c :: rest.takeWhile Text.isNamePart)), ?_, ?_⟩
    · simp only [wordRound, hstop, hcut, bind, Except.bind, if_neg hword]
      rfl
    · exact .next _ _ (by simp) (List.cons_ne_nil _ _) rfl (tokenize_word hstart hword)

theorem follows_otherRound (hc : IsOther c) :
    Follows front (c :: rest) (otherRound (front ++ c :: rest) (byteLength front)) := by
  have hfrom := sliceFrom_append front (c :: rest)
  cases hdots : "...".toList.isPrefixOf (c :: rest) with
  | false =>
    refine ⟨.fail (.unexpectedCharacter c), ?_, .fail (tokenize_unexpected hc hdots)⟩
    simp only [otherRound, hfrom, bind, Except.bind, hdots]
    rfl
  | true =>
    obtain ⟨back, hback⟩ := List.isPrefixOf_iff_prefix.mp hdots
    refine ⟨.next (some .ellipsis) (byteLength front + 3), ?_, ?_⟩
    · simp only [otherRound, hfrom, bind, Except.bind, hdots]
      rfl
    · have hlength : byteLength front + 3 = byteLength (front ++ ['.', '.', '.']) :=
        (byteLength_append front ['.', '.', '.']).symm
      rw [← hback]
      exact .next _ _ rfl (List.cons_ne_nil _ _) hlength tokenize_ellipsis

theorem roundAt_of_isOther {text : List Char} {i : Nat} (hc : IsOther c) :
    roundAt text i c = otherRound text i := by
  rw [roundAt, if_neg hc.not_blank, if_neg hc.ne_paren, hc.punctuation?_eq, hc.isDigit_eq,
    hc.isNameStart_eq]
  rfl

theorem follows_roundAt_of_eq :
    Follows front (c :: rest) (roundAt (front ++ c :: rest) (byteLength front) c) := by
  by_cases hblank : c = ' ' ∨ c = '\t'
  · rw [roundAt, if_pos hblank]
    refine ⟨_, rfl, .next [c] rest rfl (List.cons_ne_nil _ _) ?_ ?_⟩
    · refine (byteLength_concat ?_ front).symm
      rcases hblank with rfl | rfl <;> rfl
    · rw [tokenize_blank hblank]
      exact (congrFun Except.map_id _).symm
  by_cases hparen : c = '('
  · rw [roundAt, if_neg hblank, if_pos hparen, hparen]
    exact follows_phraseRound front rest
  cases hpunctuation : punctuation? c with
  | some token =>
    rw [roundAt, if_neg hblank, if_neg hparen, hpunctuation]
    refine ⟨_, rfl, .next [c] rest rfl (List.cons_ne_nil _ _) ?_
      (tokenize_punctuation hpunctuation)⟩
    refine (byteLength_concat ?_ front).symm
    unfold punctuation? at hpunctuation
    split at hpunctuation
    all_goals first | rfl | cases hpunctuation
  | none =>
    cases hdigit : c.isDigit with
    | true =>
      rw [roundAt, if_neg hblank, if_neg hparen, hpunctuation, hdigit]
      exact follows_numberRound front rest hdigit
    | false =>
      cases hstart : Text.isNameStart c with
      | true =>
        rw [roundAt, if_neg hblank, if_neg hparen, hpunctuation, hdigit, hstart]
        exact follows_wordRound front rest hstart
      | false =>
        have hother : IsOther c := ⟨hblank, hparen, hpunctuation, hdigit, hstart⟩
        rw [roundAt_of_isOther hother]
        exact follows_otherRound front rest hother

/-- One round takes no step that it must not take, and reads what the tokenizer does. Of a character
that is not ASCII it sees the first byte only, with which no token starts either. -/
theorem follows_roundAt {byte : UInt8} (hbyte : byte ∈ (String.utf8EncodeChar c).head?) :
    Follows front (c :: rest)
      (roundAt (front ++ c :: rest) (byteLength front) (Char.ofUInt8 byte)) := by
  rcases Nat.lt_or_ge 127 c.toNat with hlt | hle
  · have hgt := toNat_ofUInt8_gt hlt byte (List.mem_of_mem_head? hbyte)
    rw [roundAt_of_isOther (.of_gt hgt)]
    exact follows_otherRound front rest (.of_gt hlt)
  · obtain ⟨only, honly, heq⟩ := utf8EncodeChar_of_le hle
    obtain rfl : only = byte := by simpa [honly] using hbyte
    rw [heq]
    exact follows_roundAt_of_eq front rest

end Rounds

/-! The scan. -/

/-- From a position between characters, the scan takes no step that it must not take and gives what
the tokenizer gives on the text that is left there. -/
theorem scanFrom_append (front rest : List Char) :
    scanFrom (front ++ rest) (byteLength front) = .ok (tokenize rest) := by
  induction hn : rest.length using Nat.strong_induction_on generalizing front rest with
  | h n ih =>
    cases rest with
    | nil =>
      have hend : ¬ byteLength front < (bytes (front ++ [])).length := by
        rw [List.append_nil]
        exact Nat.lt_irrefl _
      rw [scanFrom, dif_neg hend, tokenize]
    | cons c rest =>
      have hin : byteLength front < (bytes (front ++ c :: rest)).length :=
        byteLength_lt_append (List.cons_ne_nil c rest)
      have hbyte : (bytes (front ++ c :: rest))[byteLength front] ∈
          (String.utf8EncodeChar c).head? := by
        have hhead := getElem?_bytes front (c :: rest)
        rw [List.getElem?_eq_getElem hin, bytes_cons] at hhead
        cases henc : String.utf8EncodeChar c with
        | nil => exact absurd henc String.utf8EncodeChar_ne_nil
        | cons byte others =>
          rw [henc] at hhead
          exact hhead.symm
      obtain ⟨round, hround, hreads⟩ := follows_roundAt front rest hbyte
      rw [scanFrom, dif_pos hin, hround]
      cases hreads with
      | fail h => exact congrArg Except.ok h.symm
      | @next token? position read back htext hread hposition h =>
        have hlt : byteLength front < position := hposition ▸ byteLength_lt_append hread
        have hback : back.length < n := by
          have := List.length_pos_iff.mpr hread
          rw [← hn, htext, List.length_append]
          omega
        simp only [if_pos hlt]
        rw [htext, ← List.append_assoc, hposition, ih _ hback _ back rfl, ← htext, h]
        rfl

/-- The scan of a type's text by positions never leaves the text, never cuts it inside of a
character and never counts below zero, and it gives the tokens of the text. -/
theorem scan_eq (text : List Char) : scan text = .ok (tokenize text) :=
  scanFrom_append [] text

end HeaderInterop.CType
