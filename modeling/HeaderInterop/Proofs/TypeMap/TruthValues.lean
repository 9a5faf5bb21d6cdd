import HeaderInterop.Proofs.TypeMap.Kept

/-!
Truth values in function pointers. A part that is written with the name of a truth value becomes its
integer type. Behind another typedef the name is only met again if it is still the name of the part
in the end, as the name of a kept typedef is; otherwise the part is mapped like any other.
-/

namespace HeaderInterop.TypeMapper

variable {mapper : TypeMapper} {first last integer : String} {type part : CType}

/-- The first name is a typedef for the last one, possibly through others, with qualifiers at any
place. None of the names in front of the last one is substituted, kept or a truth value. -/
inductive AliasOf (mapper : TypeMapper) (last : String) : String → Prop where
  | last : AliasOf mapper last last
  | typedef {name next underlying} (htypedef : mapper.registry.typedef? name = some underlying)
      (hnext : underlying.unqualified = .typedef next) (hsubstitute : mapper.substitute? name = none)
      (hkept : name ∉ mapper.settings.keepTypedefs) (htruth : mapper.boolLike? name = none)
      (h : AliasOf mapper last next) : AliasOf mapper last name

/-- A typedef of a typedef is no handle. -/
theorem isKept_of_typedef {name next : String} {underlying : CType}
    (htypedef : mapper.registry.typedef? name = some underlying)
    (hnext : underlying.unqualified = .typedef next) (hkept : name ∉ mapper.settings.keepTypedefs) :
    mapper.isKept name = false := by
  simp [isKept, hkept, Registry.isPointerHandle, htypedef, hnext]

theorem partText?_of_boolLike (hpart : part.unqualified = .typedef last)
    (htruth : mapper.boolLike? last = some integer) : mapper.partText? part = some integer := by
  rw [partText?, part?, boolLikePart?, hpart]
  simp only [htruth]

/-- A function pointer one of whose parts is at hand, the others having names. -/
theorem functionPointer_of_parts {before after params : List CType} {ret : CType}
    {front back : List String} (hbefore : before.mapM mapper.partText? = some front)
    (hafter : after.mapM mapper.partText? = some back)
    (hparts : params ++ [ret] = before ++ part :: after) :
    mapper.functionPointer (.function ret params false) =
      ((mapper.partText? part).map fun text => delegateText (front ++ text :: back)).getD "nint" := by
  rw [functionPointer_function, signatureText, if_neg Bool.false_ne_true, hparts, List.mapM_append,
    List.mapM_cons, hbefore, hafter]
  cases mapper.partText? part <;> rfl

section Acyclic

variable (hacyclic : mapper.registry.Acyclic)
include hacyclic

theorem AliasOf.map (h : mapper.AliasOf last first) :
    mapper.map (.typedef first) = mapper.map (.typedef last) := by
  induction h with
  | last => rfl
  | @typedef name next underlying htypedef hnext hsubstitute hkept _ _ ih =>
    have hlookup : mapper.map (.typedef name) = mapper.map underlying :=
      top_map_typedef hacyclic htypedef hsubstitute (isKept_of_typedef htypedef hnext hkept) false
    rw [hlookup, ← map_unqualified underlying, hnext, ih]

/-- An alias is written as any type with the managed name of the truth value is. -/
theorem AliasOf.partText? (h : mapper.AliasOf last first) (hne : first ≠ last)
    (hpart : part.unqualified = .typedef first) :
    mapper.partText? part =
      (mapper.map (.typedef last)).map fun managed => (mapper.boolLike? managed).getD managed := by
  have hmap : mapper.map part = mapper.map (.typedef last) := by
    rw [← map_unqualified part, hpart, h.map hacyclic]
  have hplain : mapper.boolLikePart? part = none := by
    rw [boolLikePart?, hpart]
    -- The written name is the first one of the chain, which is no truth value itself.
    cases h with
    | last => exact absurd rfl hne
    | typedef _ _ _ _ htruth => exact htruth
  rw [TypeMapper.partText?, part?, hplain, hmap]

/-- In a function pointer whose other parts have names, a truth value is written as its integer
type. An alias of it is written so as well if and only if the managed name of the truth value, as
that of any typedef, is the integer type or stands for it again. The name of a kept typedef does. -/
theorem functionPointer_aliasOf_iff (halias : mapper.AliasOf last first)
    (htruth : mapper.boolLike? last = some integer) (hpart : part.unqualified = .typedef first)
    {before after params params' : List CType} {ret ret' : CType} {front back : List String}
    (hbefore : before.mapM mapper.partText? = some front)
    (hafter : after.mapM mapper.partText? = some back)
    (hparts : params ++ [ret] = before ++ part :: after)
    (hparts' : params' ++ [ret'] = before ++ .typedef last :: after) :
    mapper.functionPointer (.function ret' params' false) =
        delegateText (front ++ integer :: back) ∧
      (mapper.functionPointer (.function ret params false) =
          delegateText (front ++ integer :: back) ↔
        first = last ∨ ∃ managed, mapper.map (.typedef last) = some managed ∧
          (mapper.boolLike? managed = some integer ∨
            mapper.boolLike? managed = none ∧ managed = integer)) ∧
      (last ∈ mapper.settings.keepTypedefs → mapper.substitute? last = none →
        mapper.functionPointer (.function ret params false) =
          delegateText (front ++ integer :: back)) := by
  have hwritten : mapper.functionPointer (.function ret params false) =
      delegateText (front ++ integer :: back) ↔ mapper.partText? part = some integer := by
    rw [functionPointer_of_parts hbefore hafter hparts]
    cases mapper.partText? part with
    | none => exact iff_of_false (delegateText_ne_nint _).symm (Option.some_ne_none integer).symm
    | some text =>
      rw [Option.map_some, Option.getD_some, delegateText_inj, Option.some.injEq]
  have hself : mapper.partText? (.typedef last) = some integer :=
    partText?_of_boolLike rfl htruth
  have hiff : mapper.partText? part = some integer ↔
      first = last ∨ ∃ managed, mapper.map (.typedef last) = some managed ∧
        (mapper.boolLike? managed = some integer ∨
          mapper.boolLike? managed = none ∧ managed = integer) := by
    by_cases hsame : first = last
    · exact iff_of_true (partText?_of_boolLike (hsame ▸ hpart) htruth) (.inl hsame)
    · rw [halias.partText? hacyclic hsame hpart, Option.map_eq_some_iff, or_iff_right hsame]
      refine exists_congr fun managed => and_congr_right fun _ => ?_
      cases mapper.boolLike? managed <;> simp
  refine ⟨?_, hwritten.trans hiff, fun hkept hsubstitute => hwritten.mpr (hiff.mpr (.inr ?_))⟩
  · rw [functionPointer_of_parts hbefore hafter hparts', hself]
    rfl
  · exact ⟨last, mapAt_of_kept hkept hsubstitute false, .inl htruth⟩

end Acyclic

def choice : CType := CType.typedef "SDL_bool"

def option : CType := CType.typedef "Option"

def flag : CType := CType.typedef "Flag"

/-- `typedef unsigned char SDL_bool;`, `typedef SDL_bool Option;` and `typedef const Option Flag;`. -/
def choiceRegistry : Registry :=
  { typedefs := [("SDL_bool", .primitive .unsignedChar), ("Option", choice),
      ("Flag", .qualified .constant option)] }

/-- The truth value is kept by its name. -/
def keepingMapper : TypeMapper where
  settings := { Config.standard.types with keepTypedefs := ["SDL_bool"] }
  registry := choiceRegistry

/-- The truth value is mapped by what it stands for. -/
def resolvingMapper : TypeMapper where
  settings := Config.standard.types
  registry := choiceRegistry

theorem choiceRegistry_acyclic : choiceRegistry.Acyclic :=
  Registry.acyclic_of_pairwise (by decide) (by decide)

theorem functionPointer_aliasOf_iff_kept :
    keepingMapper.registry.Acyclic ∧ keepingMapper.AliasOf "SDL_bool" "Flag" ∧
      keepingMapper.boolLike? "SDL_bool" = some "int" ∧
      keepingMapper.functionPointer
          (.function (.primitive .void) [.primitive .float, .qualified .constant flag] false) =
        "delegate* unmanaged<float, int, void>" := by
  have halias : keepingMapper.AliasOf "SDL_bool" "Flag" :=
    .typedef rfl rfl (by decide +kernel) (by decide) (by decide +kernel)
      (.typedef rfl rfl (by decide +kernel) (by decide) (by decide +kernel) .last)
  have htruth : keepingMapper.boolLike? "SDL_bool" = some "int" := by decide +kernel
  have hfront : [CType.primitive .float].mapM keepingMapper.partText? = some ["float"] := by
    decide +kernel
  have hback : [CType.primitive .void].mapM keepingMapper.partText? = some ["void"] := by
    decide +kernel
  have hpart : (CType.qualified .constant flag).unqualified = flag := rfl
  have hparts : [.primitive .float, .qualified .constant flag] ++ [.primitive .void] =
      [CType.primitive .float] ++ .qualified .constant flag :: [.primitive .void] := rfl
  have hparts' : [.primitive .float, choice] ++ [.primitive .void] =
      [CType.primitive .float] ++ choice :: [.primitive .void] := rfl
  have hpointer := functionPointer_aliasOf_iff choiceRegistry_acyclic halias htruth hpart hfront
    hback hparts hparts'
  have htext : delegateText (["float"] ++ "int" :: ["void"]) =
      "delegate* unmanaged<float, int, void>" := by decide +kernel
  refine ⟨choiceRegistry_acyclic, halias, htruth, ?_⟩
  rw [← htext]
  exact hpointer.2.2 (by decide) (by decide +kernel)

/-- An alias of a truth value that is neither kept nor substituted comes out as what that stands
for. -/
theorem functionPointer_flag_ne :
    resolvingMapper.registry.Acyclic ∧ resolvingMapper.AliasOf "SDL_bool" "Flag" ∧
      resolvingMapper.boolLike? "SDL_bool" = some "int" ∧
      resolvingMapper.functionPointer (.function (.primitive .void) [choice] false) =
        "delegate* unmanaged<int, void>" ∧
      resolvingMapper.functionPointer (.function (.primitive .void) [flag] false) =
        "delegate* unmanaged<byte, void>" := by
  have halias : resolvingMapper.AliasOf "SDL_bool" "Flag" :=
    .typedef rfl rfl (by decide +kernel) (by decide) (by decide +kernel)
      (.typedef rfl rfl (by decide +kernel) (by decide) (by decide +kernel) .last)
  exact ⟨choiceRegistry_acyclic, halias, by decide +kernel, by decide +kernel, by decide +kernel⟩

end HeaderInterop.TypeMapper
