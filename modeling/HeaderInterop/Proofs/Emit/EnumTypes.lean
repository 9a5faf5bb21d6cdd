import HeaderInterop.Emit.Enums
import HeaderInterop.Proofs.Constant.EnumMembers

/-!
The type of an enum that no header fixes. Four types are tried in order, and the first that holds
every value is taken; the last one is taken without a look at the values. It is the one of unsigned
64 bits, so it does for all values of 64 bits unless a negative one stands beside one that is too
large for a signed type: then no type holds both, and the negative member is written all the same.
-/

namespace HeaderInterop.Emit

open Code (Step)
open Literal (Kind)

variable {config : Config} {mapper : TypeMapper} {name : String} {definition : Enumeration}

/-! Lines -/

/-- A member with its value. -/
def memberLine (label : String) (value : Int) : Step :=
  .line (label ++ " = " ++ toString value ++ ",")

theorem minus_mem_toString_iff {value : Int} : '-' ∈ (toString value).toList ↔ value < 0 := by
  have hdigits : '-' ∉ Nat.toDigits 10 value.natAbs := fun hminus =>
    absurd (List.all_eq_true.mp (Text.all_isDigit_toDigits value.natAbs) '-' hminus) (by decide)
  rw [Collection.toList_toString, Macro.signedText]
  by_cases h : value < 0 <;> simp [h, hdigits]

/-- A number is spelled in one way. -/
theorem eq_of_toString_eq {value other : Int}
    (h : (toString value).toList = (toString other).toList) : value = other := by
  have hsign : value < 0 ↔ other < 0 := by
    rw [← minus_mem_toString_iff, h, minus_mem_toString_iff]
  have hdigits : Nat.toDigits 10 value.natAbs = Nat.toDigits 10 other.natAbs := by
    rw [Collection.toList_toString, Collection.toList_toString, Macro.signedText,
      Macro.signedText] at h
    by_cases hnegative : value < 0
    · rw [if_pos (by simpa using hnegative), if_pos (by simpa using hsign.mp hnegative)] at h
      exact (List.cons.inj h).2
    · rwa [if_neg (by simpa using hnegative), if_neg (by simpa [← hsign] using hnegative)] at h
  have habs := Text.digits?_toDigits value.natAbs
  rw [hdigits, Text.digits?_toDigits, Option.some.injEq] at habs
  omega

theorem space_notMem_toString (value : Int) : ' ' ∉ (toString value).toList := by
  intro hspace
  have hliteral : ' ' ∈ (Collection.enumLiteral value).toList := by
    rw [Collection.enumLiteral_eq_append, String.toList_append]
    exact List.mem_append_left _ hspace
  exact absurd (Collection.isBlank_eq_false_of_mem_enumLiteral value ' ' hliteral) (by decide)

/-- What stands behind the last mark does not depend on what stands in front of it. -/
theorem eq_of_append_cons_eq {α : Type} {mark : α} {front other back rest : List α}
    (hback : mark ∉ back) (hrest : mark ∉ rest)
    (h : front ++ mark :: back = other ++ mark :: rest) : back = rest := by
  rcases List.append_eq_append_iff.mp h with ⟨between, -, hmark⟩ | ⟨between, -, hmark⟩
  · cases between with
    | nil => exact (List.cons.inj hmark).2
    | cons first between =>
      have hmem : mark ∈ back := by
        rw [(List.cons.inj hmark).2]
        simp
      exact absurd hmem hback
  · cases between with
    | nil => exact (List.cons.inj hmark).2.symm
    | cons first between =>
      have hmem : mark ∈ rest := by
        rw [(List.cons.inj hmark).2]
        simp
      exact absurd hmem hrest

/-- A member's line has one value, whatever its label is. -/
theorem eq_of_memberLine_eq {label other : String} {value otherValue : Int}
    (h : memberLine label value = memberLine other otherValue) : value = otherValue := by
  have htexts := congrArg String.toList (Step.line.inj h)
  have hshape (label : String) (value : Int) :
      (label ++ " = " ++ toString value ++ ",").toList =
        (label.toList ++ [' ', '=']) ++ ' ' :: (toString value).toList ++ [','] := by
    simp
  rw [hshape, hshape] at htexts
  have hvalues := eq_of_append_cons_eq (space_notMem_toString value)
    (space_notMem_toString otherValue) (List.append_cancel_right htexts)
  exact eq_of_toString_eq hvalues

theorem memberLine_notMem_nativeTag (label : String) (value : Int) :
    memberLine label value ∉ nativeTag config name := by
  intro hmem
  unfold nativeTag at hmem
  split at hmem
  next =>
    have htexts := congrArg (fun text => text.toList.getLast?)
      (Step.line.inj (List.mem_singleton.mp hmem))
    simp only [String.toList_append] at htexts
    have hcomma : ",".toList = [','] := rfl
    have hmark : "</unmanaged>".toList = "</unmanaged".toList ++ ['>'] := rfl
    rw [hcomma, hmark, List.getLast?_concat, ← List.append_assoc, List.getLast?_concat] at htexts
    exact absurd htexts (by decide)
  next => cases hmem

theorem exists_of_memberLine_mem {label : String} {value : Int} {members : List EnumConstant}
    (h : memberLine label value ∈ members.flatMap (enumMember config)) :
    ∃ member ∈ members, member.value = value := by
  obtain ⟨member, hmember, hline⟩ := List.mem_flatMap.mp h
  refine ⟨member, hmember, ?_⟩
  rcases List.mem_append.mp hline with htag | hline
  · exact absurd htag (memberLine_notMem_nativeTag label value)
  · exact (eq_of_memberLine_eq (List.mem_singleton.mp hline)).symm

theorem memberLine_mem_members {member : EnumConstant} {members : List EnumConstant}
    (h : member ∈ members) :
    memberLine member.name member.value ∈ members.flatMap (enumMember config) :=
  List.mem_flatMap.mpr ⟨member, h, List.mem_append_right _ (List.mem_singleton_self _)⟩

/-! The four types -/

/-- The types of an enum that no header fixes, in the order in which they are tried. -/
def enumKinds : List Kind :=
  [.int, .uint, .long, .ulong]

def HoldsAll (kind : Kind) (definition : Enumeration) : Prop :=
  ∀ member ∈ definition.constants, kind.holds member.value

theorem allWithin_iff {low high : Int} :
    allWithin low high definition = true ↔
      ∀ member ∈ definition.constants, low ≤ member.value ∧ member.value ≤ high := by
  simp [allWithin]

/-- The type is the first that holds every value, or else the last. -/
theorem exists_narrowestType (definition : Enumeration) :
    ∃ kind ∈ enumKinds, narrowestType definition = kind.name ∧
      (∀ earlier ∈ enumKinds.takeWhile (· ≠ kind), ¬ HoldsAll earlier definition) ∧
      (HoldsAll kind definition ∨ kind = .ulong) := by
  have hint : allWithin Text.minInt32 Text.maxInt32 definition = true ↔ HoldsAll .int definition :=
    allWithin_iff
  have huint : allWithin 0 Text.maxUInt32 definition = true ↔ HoldsAll .uint definition :=
    allWithin_iff
  have hlong : allWithin Text.minInt64 Text.maxInt64 definition = true ↔
      HoldsAll .long definition := allWithin_iff
  rw [narrowestType]
  split
  next hfits => exact ⟨.int, by decide, rfl, List.forall_mem_nil _, Or.inl (hint.mp hfits)⟩
  next hnoInt =>
    rw [hint] at hnoInt
    split
    next hfits =>
      exact ⟨.uint, by decide, rfl, List.forall_mem_singleton.mpr hnoInt, Or.inl (huint.mp hfits)⟩
    next hnoUint =>
      rw [huint] at hnoUint
      have hshort : ∀ earlier ∈ [Kind.int, .uint], ¬ HoldsAll earlier definition :=
        List.forall_mem_cons.mpr ⟨hnoInt, List.forall_mem_singleton.mpr hnoUint⟩
      split
      next hfits => exact ⟨.long, by decide, rfl, hshort, Or.inl (hlong.mp hfits)⟩
      next hnoLong =>
        rw [hlong] at hnoLong
        have hsigned : ∀ earlier ∈ [Kind.int, .uint] ++ [.long], ¬ HoldsAll earlier definition :=
          List.forall_mem_append.mpr ⟨hshort, List.forall_mem_singleton.mpr hnoLong⟩
        exact ⟨.ulong, by decide, rfl, hsigned, Or.inr rfl⟩

theorem le_maxInt64_of_holds {kind : Kind} (hkind : kind ∈ enumKinds) (hne : kind ≠ .ulong)
    {value : Int} (h : kind.holds value) : value ≤ Text.maxInt64 := by
  have hmem : kind ∈ [Kind.int, .uint, .long] := by
    simpa [enumKinds, hne] using hkind
  unfold Text.maxInt64
  rcases List.mem_cons.mp hmem with rfl | hmem
  · have hle : value ≤ 0x7fffffff := h.2
    omega
  · rcases List.mem_cons.mp hmem with rfl | hmem
    · have hle : value ≤ 0xffffffff := h.2
      omega
    · obtain rfl := List.mem_singleton.mp hmem
      exact h.2

/-- The first type that holds every value, or else the last, holds every value of 64 bits unless a
negative one stands beside one that is too large for a signed type. -/
theorem holdsAll_iff_of_first {kind : Kind} (hkind : kind ∈ enumKinds)
    (hfirst : ∀ earlier ∈ enumKinds.takeWhile (· ≠ kind), ¬ HoldsAll earlier definition)
    (hheld : HoldsAll kind definition ∨ kind = .ulong)
    (hrange : ∀ member ∈ definition.constants,
      Text.minInt64 ≤ member.value ∧ member.value ≤ Text.maxUInt64) :
    HoldsAll kind definition ↔
      ∀ low ∈ definition.constants, ∀ high ∈ definition.constants, low.value < 0 →
        high.value ≤ Text.maxInt64 := by
  by_cases hkindUlong : kind = .ulong
  · subst hkindUlong
    constructor
    · intro hall low hlow high _ hnegative
      have hnonneg : 0 ≤ low.value := (hall low hlow).1
      omega
    · intro hsigned low hlow
      -- some value is too large for `long`, so no negative one is there
      have hlong : ¬ HoldsAll .long definition := hfirst .long (by decide)
      obtain ⟨high, hhigh, hlarge⟩ : ∃ high ∈ definition.constants, Text.maxInt64 < high.value :=
        Classical.byContradiction fun hnone => hlong fun member hmember =>
          ⟨(hrange member hmember).1, Int.not_lt.mp fun hlt => hnone ⟨member, hmember, hlt⟩⟩
      have hnonneg : 0 ≤ low.value := Int.not_lt.mp fun hnegative => by
        have hle := hsigned low hlow high hhigh hnegative
        omega
      exact ⟨hnonneg, (hrange low hlow).2⟩
  · have hall := hheld.resolve_right hkindUlong
    exact iff_of_true hall fun _ _ high hhigh _ =>
      le_maxInt64_of_holds hkind hkindUlong (hall high hhigh)

/-! The declaration -/

/-- No type is fixed for the enum, or one that is not mapped to an integral type. -/
def IsUnfixed (mapper : TypeMapper) (definition : Enumeration) : Prop :=
  ∀ type managed, definition.underlying = some type → mapper.map type = some managed →
    managed ∉ integralTypes

theorem underlyingType_value (h : IsUnfixed mapper definition) :
    (underlyingType mapper definition).value = narrowestType definition := by
  unfold underlyingType
  cases hfixed : definition.underlying.bind mapper.map with
  | none => rfl
  | some managed =>
    obtain ⟨type, htype, hmanaged⟩ := Option.bind_eq_some_iff.mp hfixed
    have hother : integralTypes.contains managed = false := by
      rw [Bool.eq_false_iff, Ne, List.contains_iff_mem]
      exact h type managed htype hmanaged
    simp only [hother]
    rfl

/-- What stands in front of the first brace of an enum. -/
def enumOpening (config : Config) (name type : String) : String :=
  config.visibility ++ " enum " ++ name ++ " : " ++ type

theorem enumOpening_inj {type other : String}
    (h : enumOpening config name type = enumOpening config name other) : type = other := by
  have htexts := congrArg String.toList h
  simp only [enumOpening, String.toList_append] at htexts
  exact String.toList_inj.mp (List.append_cancel_left htexts)

theorem enumSteps_value (config : Config) (h : IsUnfixed mapper definition) (name : String) :
    ∃ front, (enumSteps config mapper name definition).value =
      front ++ [.block (enumOpening config name (narrowestType definition))
        (definition.constants.flatMap (enumMember config)), .blank] := by
  rw [← underlyingType_value h]
  exact ⟨_, rfl⟩

/-- The enum is declared with its members, and the line of each has a value in the range of the type
in the header, and no type that is tried before it holds all of them. -/
def FitsType (config : Config) (mapper : TypeMapper) (name : String) (definition : Enumeration) :
    Prop :=
  ∃ kind ∈ enumKinds, ∃ front body,
    (enumSteps config mapper name definition).value =
      front ++ [.block (enumOpening config name kind.name) body, .blank] ∧
    (∀ member ∈ definition.constants, memberLine member.name member.value ∈ body) ∧
    (∀ label value, memberLine label value ∈ body → kind.holds value) ∧
    ∀ earlier ∈ enumKinds.takeWhile (· ≠ kind), ¬ HoldsAll earlier definition

theorem eq_of_mem_enumKinds {kind other : Kind} (hkind : kind ∈ enumKinds)
    (hother : other ∈ enumKinds) (h : kind.name = other.name) : kind = other := by
  revert h
  revert other
  revert kind
  decide

theorem fitsType_iff_of_first (config : Config) (hunfixed : IsUnfixed mapper definition)
    {kind : Kind} (hkind : kind ∈ enumKinds) (hname : narrowestType definition = kind.name)
    (hfirst : ∀ earlier ∈ enumKinds.takeWhile (· ≠ kind), ¬ HoldsAll earlier definition)
    (name : String) : FitsType config mapper name definition ↔ HoldsAll kind definition := by
  obtain ⟨front, hsteps⟩ := enumSteps_value config hunfixed name
  rw [hname] at hsteps
  constructor
  · rintro ⟨other, hother, before, body, hdeclared, hwritten, hholds, -⟩
    rw [hsteps] at hdeclared
    obtain ⟨-, hblock⟩ := List.append_inj' hdeclared rfl
    obtain ⟨hopening, rfl⟩ := Step.block.inj (List.cons.inj hblock).1
    obtain rfl := eq_of_mem_enumKinds hkind hother (enumOpening_inj hopening)
    exact fun member hmember => hholds _ _ (hwritten member hmember)
  · intro hall
    refine ⟨kind, hkind, front, _, hsteps, fun member => memberLine_mem_members,
      fun label value hline => ?_, hfirst⟩
    obtain ⟨member, hmember, rfl⟩ := exists_of_memberLine_mem hline
    exact hall member hmember

/-- An enum whose type is not fixed, with values of 64 bits, has a type that fits its members exactly
if no negative value stands beside one that is too large for a signed type. -/
theorem fitsType_iff (config : Config) (mapper : TypeMapper) (name : String)
    {definition : Enumeration} (hunfixed : IsUnfixed mapper definition)
    (hrange : ∀ member ∈ definition.constants,
      Text.minInt64 ≤ member.value ∧ member.value ≤ Text.maxUInt64) :
    FitsType config mapper name definition ↔
      ∀ low ∈ definition.constants, ∀ high ∈ definition.constants, low.value < 0 →
        high.value ≤ Text.maxInt64 := by
  obtain ⟨kind, hkind, hname, hfirst, hheld⟩ := exists_narrowestType definition
  rw [fitsType_iff_of_first config hunfixed hkind hname hfirst,
    holdsAll_iff_of_first hkind hfirst hheld hrange]

/-- The type that the header fixes is none of integers. -/
def signedEnum : Enumeration where
  name := some "Offset"
  underlying := some (.primitive .float)
  constants := [⟨"BEFORE", -1⟩, ⟨"LIMIT", 0x80000000⟩]

theorem fitsType_iff_signed :
    IsUnfixed Constant.standardMapper signedEnum ∧
      (∀ member ∈ signedEnum.constants,
        Text.minInt64 ≤ member.value ∧ member.value ≤ Text.maxUInt64) ∧
      FitsType Config.standard Constant.standardMapper "Offset" signedEnum := by
  have hunfixed : IsUnfixed Constant.standardMapper signedEnum := by
    intro type managed htype hmanaged
    obtain rfl := Option.some.inj htype
    obtain rfl : "float" = managed := Option.some.inj hmanaged
    decide
  have hrange : ∀ member ∈ signedEnum.constants,
      Text.minInt64 ≤ member.value ∧ member.value ≤ Text.maxUInt64 := by decide +kernel
  exact ⟨hunfixed, hrange,
    (fitsType_iff Config.standard Constant.standardMapper "Offset" hunfixed hrange).mpr
      (by decide +kernel)⟩

/-- A negative value beside one that only an unsigned type of 64 bits holds. -/
def mixedEnum : Enumeration where
  name := some "Mask"
  underlying := none
  constants := [⟨"NONE", -1⟩, ⟨"TOP", 0x8000000000000000⟩]

/-- The enum is unsigned, with a negative member. -/
theorem not_fitsType_mixed :
    mixedEnum.underlying = none ∧
      (∀ member ∈ mixedEnum.constants,
        Text.minInt64 ≤ member.value ∧ member.value ≤ Text.maxUInt64) ∧
      (underlyingType Constant.standardMapper mixedEnum).value = "ulong" ∧
      ¬ FitsType Config.standard Constant.standardMapper "Mask" mixedEnum := by
  have hunfixed : IsUnfixed Constant.standardMapper mixedEnum := fun _ _ htype => by cases htype
  have hulong : narrowestType mixedEnum = Kind.ulong.name := by decide +kernel
  refine ⟨rfl, by decide +kernel, (underlyingType_value hunfixed).trans hulong, fun hfits => ?_⟩
  obtain ⟨kind, hkind, hname, hfirst, -⟩ := exists_narrowestType mixedEnum
  obtain rfl := eq_of_mem_enumKinds hkind (by decide) (hname.symm.trans hulong)
  rw [fitsType_iff_of_first Config.standard hunfixed hkind hname hfirst] at hfits
  exact absurd (hfits ⟨"NONE", -1⟩ (List.mem_cons_self ..)).1 (by decide)

end HeaderInterop.Emit
