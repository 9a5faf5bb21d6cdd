import HeaderInterop.Collection
import HeaderInterop.Proofs.CType.Lexemes
import HeaderInterop.Proofs.Constant.Integers

/-!
Members of unnamed enums as constants. The literal of a member passes the tokenizer and the rules as
it is, and the type that is read off it holds the value of the member.
-/

namespace HeaderInterop

namespace Text

theorem trim_eq_self {cs : List Char} (h : ∀ c ∈ cs, isBlank c = false) : trim cs = cs := by
  have hdrop {text : List Char} (htext : ∀ c ∈ text, isBlank c = false) :
      text.dropWhile isBlank = text := by
    cases text with
    | nil => rfl
    | cons c rest => exact List.dropWhile_cons_of_neg (by simp [htext c List.mem_cons_self])
  rw [trim, trimStart, hdrop h, hdrop (by simpa using h), List.reverse_reverse]

end Text

namespace Collection

open Literal Macro

/-- The suffix of a member's literal. -/
def enumSuffix (value : Int) : Suffix :=
  if (0 ≤ value ∧ value ≤ Text.maxUInt32) ∨ (Text.minInt32 ≤ value ∧ value ≤ Text.maxInt32) then
    .plain
  else if Text.minInt64 ≤ value ∧ value ≤ Text.maxInt64 then .long
  else .unsignedLong

theorem enumLiteral_eq_append (value : Int) :
    enumLiteral value = toString value ++ String.ofList (enumSuffix value).letters := by
  unfold enumLiteral enumSuffix
  split
  next => exact String.append_empty.symm
  next => split <;> rfl

theorem toList_toString (value : Int) :
    (toString value).toList = signedText (value < 0) (Nat.toDigits 10 value.natAbs) := by
  cases value with
  | ofNat n =>
    rw [signedText, if_neg (by simp)]
    exact Nat.toList_repr
  | negSucc n =>
    rw [signedText, if_pos (by simp [Int.negSucc_lt_zero])]
    change ("-" ++ toString (n + 1)).toList = _
    rw [String.toList_append]
    exact congrArg ('-' :: ·) Nat.toList_repr

theorem toList_enumLiteral (value : Int) :
    (enumLiteral value).toList =
      signedText (value < 0) (Nat.toDigits 10 value.natAbs ++ (enumSuffix value).letters) := by
  rw [enumLiteral_eq_append, String.toList_append, toList_toString, String.toList_ofList, signedText,
    signedText]
  split <;> rfl

/-- The suffix is that of a letter or two, and `L` stands in it once. -/
theorem shortened_enumSuffix (value : Int) :
    shortened (enumSuffix value).letters = (enumSuffix value).letters := by
  unfold enumSuffix
  split
  next => decide
  next => split <;> decide

theorem mem_letters_enumSuffix {value : Int} {c : Char} (h : c ∈ (enumSuffix value).letters) :
    c ∈ ['U', 'L'] := by
  unfold enumSuffix at h
  split at h
  next => exact absurd h List.not_mem_nil
  next =>
    split at h
    · exact List.mem_cons_of_mem 'U' h
    · exact h

section Digits

variable (value : Int)

/-- A property of the digits and of the letters of a suffix is checked on each of them. -/
theorem forall_mem_toDigits_append {p : Char → Prop} [DecidablePred p]
    (hdigits : ("0123456789".toList.all fun c => p c) = true)
    (hletters : (['U', 'L'].all fun c => p c) = true) :
    ∀ c ∈ Nat.toDigits 10 value.natAbs ++ (enumSuffix value).letters, p c := by
  intro c hc
  rcases List.mem_append.mp hc with hdigit | hletter
  · exact Text.forall_isDigit hdigits
      (List.all_eq_true.mp (Text.all_isDigit_toDigits value.natAbs) c hdigit)
  · exact of_decide_eq_true (List.all_eq_true.mp hletters c (mem_letters_enumSuffix hletter))

theorem isBlank_eq_false_of_mem_enumLiteral :
    ∀ c ∈ (enumLiteral value).toList, Text.isBlank c = false := by
  have hnumber := forall_mem_toDigits_append value (p := fun c => Text.isBlank c = false)
    (by decide) (by decide)
  rw [toList_enumLiteral, signedText]
  split
  next => exact List.forall_mem_cons.mpr ⟨by decide, hnumber⟩
  next => exact hnumber

theorem startsWithDigit_toDigits : startsWithDigit (Nat.toDigits 10 value.natAbs) = true :=
  startsWithDigit_of_all Nat.toDigits_ne_nil (Text.all_isDigit_toDigits value.natAbs)

theorem endsInDigit_toDigits : EndsInDigit (Nat.toDigits 10 value.natAbs) := by
  intro c hc
  have hdigit := List.all_eq_true.mp (Text.all_isDigit_toDigits value.natAbs) c
    (List.mem_of_getLast? hc)
  exact Text.forall_isDigit (p := fun c => c.toLower ≠ 'u' ∧ c.toLower ≠ 'l') (by decide) hdigit

theorem all_isAlphanum_toDigits_append :
    (Nat.toDigits 10 value.natAbs ++ (enumSuffix value).letters).all Char.isAlphanum = true :=
  List.all_eq_true.mpr (forall_mem_toDigits_append value (by decide) (by decide))

/-- The tokens of a literal are joined to the literal again. -/
theorem normalize_enumLiteral : normalize (tokenize (enumLiteral value)) = enumLiteral value := by
  have hnormal := normalize_tokenize_inParens (startsWithDigit_toDigits value)
    (endsInDigit_toDigits value) (all_isAlphanum_toDigits_append value) (value < 0) 0
  rw [inParens, ← toList_enumLiteral, String.ofList_toList, shortened_enumSuffix] at hnormal
  rw [hnormal, enumLiteral_eq_append, ← toList_toString, String.ofList_append, String.ofList_toList]

theorem areStrings_enumLiteral : Constant.areStrings (tokenize (enumLiteral value)) = false := by
  have hdigit :=
    startsWithDigit_append (startsWithDigit_toDigits value) (enumSuffix value).letters
  have htokens :=
    tokenize_inParens hdigit (all_isAlphanum_toDigits_append value) (value < 0) 0
  rw [inParens, ← toList_enumLiteral, String.ofList_toList] at htokens
  rw [htokens]
  exact areStrings_signedTokens hdigit (value < 0)

end Digits

theorem kind?_enumLiteral (value : Int) :
    Literal.kind? (enumLiteral value) =
      if (enumSuffix value).letters = [] then decimalKind? (value < 0) value.natAbs
      else (enumSuffix value).kind? := by
  rw [Literal.kind?, enumLiteral_eq_append, String.toList_append, toList_toString,
    String.toList_ofList]
  split
  next hletters =>
    rw [hletters, List.append_nil]
    exact kindOfChars?_of_digits? (Text.digits?_toDigits value.natAbs) (value < 0)
  next hletters =>
    rw [← shortened_enumSuffix]
    exact kindOfChars?_of_suffix (startsWithDigit_toDigits value) (endsInDigit_toDigits value)
      (value < 0) (enumSuffix value) hletters

/-- A value of 32 bits has a type of 32 bits, and that is signed for a negative value. -/
theorem exists_decimalKind?_holds {value : Int}
    (h : (0 ≤ value ∧ value ≤ Text.maxUInt32) ∨
      (Text.minInt32 ≤ value ∧ value ≤ Text.maxInt32)) :
    ∃ kind, kind ∈ [Kind.int, .uint] ∧ kind.holds value ∧
      decimalKind? (value < 0) value.natAbs = some kind := by
  unfold Text.maxUInt32 Text.minInt32 Text.maxInt32 at h
  by_cases hnegative : value < 0
  · have hfits : value.natAbs ≤ 0x80000000 := by omega
    refine ⟨.int, by simp, ?_, by simp [decimalKind?, hnegative, hfits]⟩
    change -0x80000000 ≤ value ∧ value ≤ 0x7fffffff
    omega
  · have hfits : value.natAbs ≤ Text.maxUInt32 := by
      unfold Text.maxUInt32
      omega
    refine ⟨.uint, by simp, ?_, by simp [decimalKind?, hnegative, hfits]⟩
    change 0 ≤ value ∧ value ≤ 0xffffffff
    omega

/-- The type read off a literal holds the value. -/
theorem exists_kind?_enumLiteral {value : Int} (hleast : Text.minInt64 ≤ value)
    (hmost : value ≤ Text.maxUInt64) :
    ∃ kind suffix, (kind, suffix) ∈ [(Kind.int, ""), (.uint, ""), (.long, "L"), (.ulong, "UL")] ∧
      kind.holds value ∧ enumLiteral value = toString value ++ suffix ∧
      Literal.kind? (enumLiteral value) = some kind := by
  have hkind := kind?_enumLiteral value
  have hliteral := enumLiteral_eq_append value
  unfold enumSuffix at hkind hliteral
  split at hkind
  next hshort =>
    rw [if_pos hshort] at hliteral
    obtain ⟨kind, hmem, hholds, hsome⟩ := exists_decimalKind?_holds hshort
    exact ⟨kind, "", by simpa using hmem, hholds, hliteral, hkind.trans hsome⟩
  next hwide =>
    rw [if_neg hwide] at hliteral
    split at hkind
    next hlong =>
      rw [if_pos hlong] at hliteral
      exact ⟨.long, "L", by simp, hlong, hliteral, hkind⟩
    next hlong =>
      rw [if_neg hlong] at hliteral
      have hholds : Kind.ulong.holds value := by
        refine ⟨?_, hmost⟩
        unfold Text.minInt64 Text.maxInt64 at hlong
        unfold Text.minInt64 at hleast
        omega
      exact ⟨.ulong, "UL", by simp, hholds, hliteral, hkind⟩

theorem value_enumMacro (member : EnumConstant) :
    (enumMacro member).value = enumLiteral member.value := by
  change String.ofList (Text.trim (enumLiteral member.value).toList) = _
  rw [Text.trim_eq_self (isBlank_eq_false_of_mem_enumLiteral member.value), String.ofList_toList]

end Collection

namespace Constant

open Literal (Kind)

/-- A member of an unnamed enum becomes a constant of a type that holds its value, and its value is
spelled as a decimal with the suffix of the type, whatever constants are known. -/
theorem ofMacro?_enumMacro (settings : ConstantSettings) (mapper : TypeMapper) (known : Known)
    (member : EnumConstant) (hgiven : isGiven settings member.name = false)
    (hleast : Text.minInt64 ≤ member.value) (hmost : member.value ≤ Text.maxUInt64) :
    ∃ kind suffix, (kind, suffix) ∈ [(Kind.int, ""), (.uint, ""), (.long, "L"), (.ulong, "UL")] ∧
      kind.holds member.value ∧
      ofMacro? settings mapper known (Collection.enumMacro member) =
        pure (some (.const kind.name (toString member.value ++ suffix))) := by
  obtain ⟨kind, suffix, hmem, hholds, hliteral, hkind⟩ :=
    Collection.exists_kind?_enumLiteral hleast hmost
  refine ⟨kind, suffix, hmem, hholds, ?_⟩
  have htokens : (Collection.enumMacro member).tokens =
      Macro.tokenize (Collection.enumLiteral member.value) := by
    rw [Macro.tokens, Collection.value_enumMacro]
  have hnormal := Collection.normalize_enumLiteral member.value
  rw [ofMacro?_eq_ofTokens hgiven, htokens, ofTokens_of_kind?
    (Collection.areStrings_enumLiteral member.value) (hnormal.symm ▸ hkind), hnormal, hliteral]
  rfl

/-- The largest value of 64 bits. -/
def largestMember : EnumConstant where
  name := "ALL"
  value := 0xFFFFFFFFFFFFFFFF

theorem ofMacro?_enumMacro_largest :
    isGiven Config.standard.constants largestMember.name = false ∧
      Text.minInt64 ≤ largestMember.value ∧ largestMember.value ≤ Text.maxUInt64 ∧
      ∃ kind suffix,
        (kind, suffix) ∈ [(Kind.int, ""), (.uint, ""), (.long, "L"), (.ulong, "UL")] ∧
        kind.holds 0xFFFFFFFFFFFFFFFF ∧
        ofMacro? Config.standard.constants standardMapper [("ALL", .const "int" "1")]
            (Collection.enumMacro largestMember) =
          pure (some (.const kind.name (toString largestMember.value ++ suffix))) := by
  have hgiven : isGiven Config.standard.constants largestMember.name = false := by decide
  have hleast : Text.minInt64 ≤ largestMember.value := by decide
  have hmost : largestMember.value ≤ Text.maxUInt64 := by decide
  exact ⟨hgiven, hleast, hmost, ofMacro?_enumMacro Config.standard.constants standardMapper
    [("ALL", .const "int" "1")] largestMember hgiven hleast hmost⟩

end Constant

end HeaderInterop
