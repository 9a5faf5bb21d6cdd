import HeaderInterop.Emit.Output
import HeaderInterop.Proofs.Code.Lines
import HeaderInterop.Proofs.Emit.Elements
import HeaderInterop.Proofs.Emit.FieldNames
import HeaderInterop.Proofs.Emit.Inheritance
import HeaderInterop.Proofs.Emit.Parameters

/-!
Native names where they are declared. Each has one place in a line or in the header of a block. In
it, the names of fields and parameters are escaped if they are reserved words, and all others are
written as they are. So a reserved word is written as such exactly if something other than a field
or a parameter has it for a name.
-/

namespace HeaderInterop.Emit

open Code (Step LineIn)

/-- What a name is declared as. -/
inductive Position where
  | constant
  | enum
  | enumMember
  | handle
  | struct
  | field
  | function
  | parameter
deriving DecidableEq, Repr

/-- The position is one of those in which names are made identifiers. -/
def Position.escapes (position : Position) : Bool :=
  position = .field || position = .parameter

/-- How a native name is written in the position. -/
def Position.spelling (position : Position) (native : String) : String :=
  if position.escapes then identifier native else native

/-- The place of a name: what stands in front of it and behind it. -/
structure Slot where
  front : String
  back : String

def Slot.fill (slot : Slot) (name : String) : String :=
  slot.front ++ name ++ slot.back

theorem Slot.injective_fill (slot : Slot) : Function.Injective slot.fill := by
  intro name other h
  have htexts := congrArg String.toList h
  simp only [Slot.fill, String.toList_append, List.append_assoc] at htexts
  exact String.toList_inj.mp (List.append_cancel_right (List.append_cancel_left htexts))

/-! The places -/

def constantSlot : Constant → Slot
  | .const type value => ⟨"public const " ++ type ++ " ", " = " ++ value ++ ";"⟩
  | .readonly type value => ⟨"public static readonly " ++ type ++ " ", " = " ++ value ++ ";"⟩
  | .utf8 value => ⟨"public static ReadOnlySpan<byte> ", " => " ++ value ++ ";"⟩

def enumSlot (config : Config) (type : String) : Slot :=
  ⟨config.visibility ++ " enum ", " : " ++ type⟩

def memberSlot (value : Int) : Slot :=
  ⟨"", " = " ++ toString value ++ ","⟩

/-- A wrapper can be compared with others of its own type, which is behind the place of its name. -/
def handleSlot (config : Config) (name : String) : HandleKind → Slot
  | .opaqueRecord => ⟨config.visibility ++ " partial struct ", ""⟩
  | .pointer =>
    ⟨config.visibility ++ " readonly partial struct ", "(nint handle) : IEquatable<" ++ name ++ ">"⟩

def structSlot (config : Config) : Slot :=
  ⟨config.visibility ++ " partial struct ", ""⟩

/-- The type of an array that is no fixed buffer is named for the field. -/
def fieldSlot (field : String) (extents : List Nat) (managed : String) : Slot :=
  if extents = [] then
    ⟨"public " ++ (if hasPointer managed then "unsafe " else "") ++ managed ++ " ", ";"⟩
  else if isFixedBufferType managed then
    ⟨"public unsafe fixed " ++ managed ++ " ",
      "[" ++ " * ".intercalate (extents.map toString) ++ "];"⟩
  else ⟨"public " ++ (field ++ "__FixedBuffer") ++ " ", ";"⟩

def functionSlot (ret : String) (types params : List String) : Slot :=
  ⟨"public static extern " ++ (if (ret :: types).any hasPointer then "unsafe " else "") ++ ret ++
      " ", "(" ++ ", ".intercalate params ++ ");"⟩

def paramSlot (managed : String) : Slot :=
  ⟨paramStart managed, ""⟩

/-! Declarations -/

section Declarations

variable (config : Config) (collection : Collection)

/-- The records that have a struct. -/
def writtenRecords : List (String × Record) :=
  collection.records.entries.filter (isStructWritten config (mapperOf config collection))

def structsCode : List Step :=
  (allStructSteps config (mapperOf config collection) collection.records.entries).value

/-- The text is written for what has the native name, with the name in the slot. -/
inductive DeclaresName : Position → Slot → String → String → Prop where
  | constant {written text}
      (h : written ∈ emitted config (mapperOf config collection) [] collection.constants.entries)
      (htext : written.lines.getLast? = some (Step.line text)) :
      DeclaresName .constant (constantSlot written.constant) written.name text
  | enum {name definition header body} (h : (name, definition) ∈ collection.enums.entries)
      (hblock : Step.block header body ∈
        (enumSteps config (mapperOf config collection) name definition).value) :
      DeclaresName .enum
        (enumSlot config (underlyingType (mapperOf config collection) definition).value) name header
  | enumMember {name definition member text} (h : (name, definition) ∈ collection.enums.entries)
      (hmember : member ∈ definition.constants)
      (htext : (enumMember config member).getLast? = some (Step.line text)) :
      DeclaresName .enumMember (memberSlot member.value) member.name text
  | handle {name kind header body} (h : (name, kind) ∈ collection.handles.entries)
      (hblock : Step.block header body ∈ handleSteps config name kind) :
      DeclaresName .handle (handleSlot config name kind) name header
  | record {name record previous header body}
      (hsite : ((name, record), (previous, Step.block header body)) ∈
        (writtenRecords config collection).zip
          (structSites config (structsCode config collection))) :
      DeclaresName .struct (structSlot config) name header
  | inlineRecord {parent record previous body name nested before header inner}
      (hstruct : StructIn config (writtenRecords config collection) (structsCode config collection)
        parent record previous body)
      (hsite : ((name, nested), (before, Step.block header inner)) ∈
        (inlineRecords parent record.fields).zip (structSites config body)) :
      DeclaresName .struct (structSlot config) name header
  | field {parent record previous body field managed before text}
      (hstruct : StructIn config (writtenRecords config collection) (structsCode config collection)
        parent record previous body)
      (hsite : (field, (before, Step.line text)) ∈ (keptFields record.fields).zip (fieldSites body))
      (hmap : (mapperOf config collection).map (elementType parent field) = some managed) :
      DeclaresName .field (fieldSlot field.name (extents field) managed) field.name text
  | function {name function ret types lines text}
      (h : (name, function) ∈ collection.functions.entries)
      (hret : (mapperOf config collection).map function.ret = some ret)
      (htypes : paramTypes? (mapperOf config collection) function.params = some types)
      (hlines : signature? (mapperOf config collection) function = some lines)
      (htext : lines.getLast? = some text) :
      DeclaresName .function (functionSlot ret types (paramTexts function.params types))
        function.name text
  | parameter {name function types native managed text} {place : Nat} {param : Param}
      (h : (name, function) ∈ collection.functions.entries)
      (hwritten : isFunctionWritten (mapperOf config collection) (name, function) = true)
      (htypes : paramTypes? (mapperOf config collection) function.params = some types)
      (hparam : (function.params.zip types)[place]? = some (param, managed))
      (hname : param.name = some native)
      (htext : (paramTexts function.params types)[place]? = some text) :
      DeclaresName .parameter (paramSlot managed) native text

/-- A reserved word is written with an escape. -/
def IsEscaped (name written : String) : Prop :=
  name ∈ reservedWords → written = "@" ++ name

/-- No reserved word is written as such where a native name is declared. -/
def EscapesNames : Prop :=
  ∀ position slot native text written, DeclaresName config collection position slot native text →
    text = slot.fill written → IsEscaped native written

/-- The names that are declared in a position without an escape, but for those of inline records. -/
def plainNames : Position → List String
  | .constant => (collection.constants.entries.filter (isConstantWritten config)).map Prod.fst
  | .enum => collection.enums.entries.map Prod.fst
  | .enumMember =>
    (collection.enums.entries.flatMap fun entry => entry.2.constants).map EnumConstant.name
  | .handle => collection.handles.entries.map Prod.fst
  | .struct => (writtenRecords config collection).map Prod.fst
  | .function =>
    (collection.functions.entries.filter
      (isFunctionWritten (mapperOf config collection))).map fun entry => entry.2.name
  | .field | .parameter => []

/-- The fields that take a place in a struct, at any depth, and the parameters with a name are
declared. -/
structure DeclaresMembers : Prop where
  fields {parent record previous body}
    (h : StructIn config (writtenRecords config collection) (structsCode config collection) parent
      record previous body) {field} (hfield : field ∈ keptFields record.fields) :
    ∃ slot text, DeclaresName config collection .field slot field.name text
  parameters {name function} (h : (name, function) ∈ collection.functions.entries)
    (hwritten : isFunctionWritten (mapperOf config collection) (name, function) = true)
    {param : Param} {native} (hparam : param ∈ function.params) (hname : param.name = some native) :
    ∃ slot text, DeclaresName config collection .parameter slot native text

end Declarations

variable {config : Config} {mapper : TypeMapper} {collection : Collection}

/-! What is written -/

theorem fill_constantSlot (constant : Constant) (name : String) :
    (constantSlot constant).fill name = constant.declaration name := by
  unfold constantSlot Slot.fill Constant.declaration
  cases constant <;> simp only [String.append_assoc]

theorem fill_memberSlot (name : String) (value : Int) :
    (memberSlot value).fill name = name ++ " = " ++ toString value ++ "," := by
  unfold memberSlot Slot.fill
  simp only [String.append_assoc, String.empty_append]

theorem fill_fieldSlot (field : String) (extents : List Nat) (managed : String) :
    (fieldSlot field extents managed).fill (identifier field) =
      declarationLine field extents managed := by
  unfold fieldSlot declarationLine
  split
  · simp only [Slot.fill, String.append_assoc]
  · split <;> simp only [Slot.fill, String.append_assoc]

/-- A handle of either kind is one block. -/
theorem eq_of_block_mem_handleSteps {name header : String} {kind : HandleKind} {body : List Step}
    (h : .block header body ∈ handleSteps config name kind) :
    header = (handleSlot config name kind).fill name := by
  cases kind with
  | opaqueRecord =>
    obtain ⟨rfl, -⟩ : header = _ ∧ _ := by simpa [handleSteps, opaqueRecord] using h
    exact String.append_empty.symm
  | pointer =>
    obtain ⟨rfl, -⟩ : header = _ ∧ _ := by simpa [handleSteps, pointerHandle] using h
    simp only [handleSlot, Slot.fill, String.append_assoc]

theorem exists_block_mem_handleSteps (config : Config) (name : String) (kind : HandleKind) :
    ∃ header body, .block header body ∈ handleSteps config name kind := by
  cases kind with
  | opaqueRecord => exact ⟨_, _, List.mem_cons_self ..⟩
  | pointer => exact ⟨_, _, List.mem_cons_of_mem _ (List.mem_cons_self ..)⟩

/-- An enum is one block behind its attributes. -/
theorem eq_of_block_mem_enumSteps {name header : String} {definition : Enumeration}
    {body : List Step} (h : .block header body ∈ (enumSteps config mapper name definition).value) :
    header = (enumSlot config (underlyingType mapper definition).value).fill name := by
  rcases List.mem_append.mp h with hfront | hblock
  · rcases List.mem_append.mp hfront with htag | hflags
    · unfold nativeTag at htag
      split at htag <;> simp at htag
    · split at hflags <;> simp at hflags
  · obtain ⟨rfl, -⟩ : header = _ ∧ body = _ := by simpa using hblock
    simp only [enumSlot, Slot.fill, String.append_assoc]

theorem exists_block_mem_enumSteps (config : Config) (mapper : TypeMapper) (name : String)
    (definition : Enumeration) :
    ∃ header, .block header (definition.constants.flatMap (enumMember config)) ∈
      (enumSteps config mapper name definition).value := by
  have hvalue : (enumSteps config mapper name definition).value =
      (nativeTag config name ++
        if isFlags config name definition then [.line "[Flags]"] else []) ++
        [.block (config.visibility ++ " enum " ++ name ++ " : " ++
          (underlyingType mapper definition).value)
          (definition.constants.flatMap (enumMember config)), .blank] := rfl
  rw [hvalue]
  exact ⟨_, List.mem_append_right _ (List.mem_cons_self ..)⟩

theorem fill_functionSlot (function ret : String) (types : List String) (params : List Param) :
    (functionSlot ret types (paramTexts params types)).fill function =
      prototypeLine function ret types (paramNames params) := by
  rw [paramTexts_eq]
  unfold functionSlot prototypeLine Slot.fill
  simp only [String.append_assoc]

theorem getLast?_signature? {function : Prototype} {lines : List String} {ret : String}
    {types : List String} (hlines : signature? mapper function = some lines)
    (hret : mapper.map function.ret = some ret)
    (htypes : paramTypes? mapper function.params = some types) :
    lines.getLast? =
      some ((functionSlot ret types (paramTexts function.params types)).fill function.name) := by
  rw [signature?_eq, hret, htypes, Option.bind_some, Option.map_some] at hlines
  obtain rfl := Option.some.inj hlines
  rw [List.getLast?_concat, fill_functionSlot]

/-- A parameter is in one piece in the line that declares its function. -/
theorem infix_fill_functionSlot {param : String} {params : List String} (h : param ∈ params)
    (ret : String) (types : List String) (function : String) :
    param.toList <:+: ((functionSlot ret types params).fill function).toList := by
  have hfill : (functionSlot ret types params).fill function =
      (functionSlot ret types params).front ++ function ++ "(" ++ ", ".intercalate params ++
        ");" := by
    unfold functionSlot Slot.fill
    simp only [String.append_assoc]
  rw [hfill, String.toList_append, String.toList_append]
  exact (infix_intercalate h).trans (List.infix_append ..)

/-! Structs -/

theorem structNames_structsCode (config : Config) (collection : Collection) :
    structNames config (structsCode config collection) =
      (writtenRecords config collection).map Prod.fst := by
  have hentry (entry : String × Record) (h : entry ∈ writtenRecords config collection) :
      structNames config (structCode config (mapperOf config collection) entry) = [entry.1] := by
    obtain ⟨steps, hsteps⟩ := except_isOk_iff.mp (List.mem_filter.mp h).2
    obtain ⟨body, _, rfl⟩ := except_map_eq_ok.mp ((structSteps_value ..).symm.trans hsteps)
    rw [structCode, hsteps, structNames, List.filterMap_append, ← structNames,
      structNames_structBlock]
    rfl
  rw [structsCode, allStructSteps_value,
    ← flatMap_filter_of_nil fun _ => structCode_of_not_isStructWritten, structNames,
    List.filterMap_flatMap, ← List.flatMap_pure_eq_map]
  exact List.flatMap_congr hentry

section Inside

variable {parent : String} {record : Record} {previous : Option Step} {body : List Step}

theorem structNames_of_structIn
    (h : StructIn config (writtenRecords config collection) (structsCode config collection) parent
      record previous body) :
    structNames config body = (inlineRecords parent record.fields).map Prod.fst := by
  obtain ⟨_, _, inside, hblock, hbody, -⟩ := h.isStructSite
    (forall₂_structSites_file config (mapperOf config collection) collection.records.entries)
  cases hblock
  rw [structNames_fieldSteps hbody, map_fst_inlineRecords]

theorem isAttributed_of_structIn
    (h : StructIn config (writtenRecords config collection) (structsCode config collection) parent
      record previous body) :
    IsAttributed config (mapperOf config collection) parent record previous body :=
  h.isAttributed
    (forall₂_structSites_file config (mapperOf config collection) collection.records.entries)

end Inside

/-- The place of a name is filled with the spelling that its position asks for. -/
theorem DeclaresName.eq_fill {position : Position} {slot : Slot} {native text : String}
    (h : DeclaresName config collection position slot native text) :
    text = slot.fill (position.spelling native) := by
  cases h with
  | @constant written _ h htext =>
    have hlast : written.lines.getLast? =
        some (.line (written.constant.declaration written.name)) := rfl
    rw [hlast] at htext
    obtain rfl := Step.line.inj (Option.some.inj htext)
    exact (fill_constantSlot ..).symm
  | enum h hblock => exact eq_of_block_mem_enumSteps hblock
  | enumMember h hmember htext =>
    rw [Emit.enumMember, List.getLast?_concat] at htext
    obtain rfl := Step.line.inj (Option.some.inj htext)
    exact (fill_memberSlot ..).symm
  | handle h hblock => exact eq_of_block_mem_handleSteps hblock
  | record hsite =>
    rw [structName?_eq_some.mp (structName?_of_mem_zip (structNames_structsCode ..) hsite)]
    exact String.append_empty.symm
  | inlineRecord hstruct hsite =>
    rw [structName?_eq_some.mp (structName?_of_mem_zip (structNames_of_structIn hstruct) hsite)]
    exact String.append_empty.symm
  | field hstruct hsite hmap =>
    obtain ⟨managed, hmanaged, hline, -⟩ :=
      List.forall₂_zip (isAttributed_of_structIn hstruct).fields hsite
    obtain rfl := Option.some.inj (hmanaged.symm.trans hmap)
    exact (Step.line.inj hline).trans (fill_fieldSlot ..).symm
  | function h hret htypes hlines htext =>
    rw [getLast?_signature? hlines hret htypes] at htext
    exact (Option.some.inj htext).symm
  | parameter h hwritten htypes hparam hname htext =>
    rw [getElem?_paramTexts hparam, hname] at htext
    obtain rfl := Option.some.inj htext
    exact String.append_empty.symm

/-! Files -/

section Files

variable {text : String}

theorem allEnumSteps_value (definitions : List (String × Enumeration)) :
    (allEnumSteps config mapper definitions).value =
      definitions.flatMap fun entry => (enumSteps config mapper entry.1 entry.2).value := by
  induction definitions with
  | nil => rfl
  | cons entry rest ih =>
    rw [allEnumSteps, Logged.value_bind, Logged.value_bind, Logged.value_pure, ih,
      List.flatMap_cons]

theorem standsInOne_constants
    (h : LineIn text (constantSteps config (mapperOf config collection) []
      collection.constants.entries).value) :
    StandsInOne (output config collection).value text :=
  ⟨_, List.mem_of_getElem? (i := 0) rfl,
    (LineIn.inside (List.mem_singleton_self _) h).infix_contents ..⟩

theorem standsInOne_enums
    (h : LineIn text (allEnumSteps config (mapperOf config collection)
      collection.enums.entries).value) :
    StandsInOne (output config collection).value text :=
  ⟨_, List.mem_of_getElem? (i := 1) rfl, h.infix_contents ..⟩

theorem standsInOne_handles
    (h : LineIn text (collection.handles.entries.flatMap fun entry =>
      handleSteps config entry.1 entry.2)) :
    StandsInOne (output config collection).value text :=
  ⟨_, List.mem_of_getElem? (i := 2) rfl, h.infix_contents ..⟩

theorem standsInOne_structs (h : LineIn text (structsCode config collection)) :
    StandsInOne (output config collection).value text :=
  ⟨_, List.mem_of_getElem? (i := 3) rfl, h.infix_contents ..⟩

theorem standsInOne_commands
    (h : LineIn text (functionSteps (mapperOf config collection)
      collection.functions.entries).value) :
    StandsInOne (output config collection).value text :=
  have hbody := h.mono (List.subset_cons_self _ _)
  ⟨_, List.mem_of_getElem? (i := 4) rfl,
    (LineIn.inside (List.mem_singleton_self _) hbody).infix_contents ..⟩

theorem standsInOne_signature {name : String} {function : Prototype} {lines : List String}
    (h : (name, function) ∈ collection.functions.entries)
    (hlines : signature? (mapperOf config collection) function = some lines)
    (htext : text ∈ lines) : StandsInOne (output config collection).value text := by
  refine standsInOne_commands ?_
  rw [functionSteps_value]
  refine LineIn.flatMap h (.line ?_)
  rw [functionCode, hlines]
  exact List.mem_cons_of_mem _ (List.mem_cons_of_mem _ (List.mem_map_of_mem htext))

/-- What is in the struct of a record is in the code around it. -/
theorem StructIn.lineIn {records : List (String × Record)} {code body : List Step} {name : String}
    {record : Record} {previous : Option Step}
    (h : StructIn config records code name record previous body) (htext : LineIn text body) :
    LineIn text code := by
  induction h with
  | here hpair => exact .inside (mem_of_mem_structSites (List.of_mem_zip hpair).2) htext
  | inside hpair _ ih =>
    exact .inside (mem_of_mem_structSites (List.of_mem_zip hpair).2) (ih htext)

theorem DeclaresName.standsInOne {position : Position} {slot : Slot} {native : String}
    (h : DeclaresName config collection position slot native text) :
    StandsInOne (output config collection).value text := by
  cases h with
  | constant h htext =>
    refine standsInOne_constants ?_
    rw [constantSteps_value]
    exact LineIn.flatMap h (.line (List.mem_of_getLast? htext))
  | enum h hblock =>
    refine standsInOne_enums ?_
    rw [allEnumSteps_value]
    exact LineIn.flatMap h (.header hblock)
  | enumMember h hmember htext =>
    refine standsInOne_enums ?_
    rw [allEnumSteps_value]
    obtain ⟨_, hblock⟩ := exists_block_mem_enumSteps config (mapperOf config collection) _ _
    have hline : LineIn text _ := LineIn.flatMap hmember (.line (List.mem_of_getLast? htext))
    exact LineIn.flatMap h (.inside hblock hline)
  | handle h hblock => exact standsInOne_handles (LineIn.flatMap h (.header hblock))
  | record hsite =>
    exact standsInOne_structs (.header (mem_of_mem_structSites (List.of_mem_zip hsite).2))
  | inlineRecord hstruct hsite =>
    exact standsInOne_structs
      (hstruct.lineIn (.header (mem_of_mem_structSites (List.of_mem_zip hsite).2)))
  | field hstruct hsite hmap =>
    exact standsInOne_structs
      (hstruct.lineIn (.line (mem_of_mem_fieldSites (List.of_mem_zip hsite).2)))
  | function h hret htypes hlines htext =>
    exact standsInOne_signature h hlines (List.mem_of_getLast? htext)
  | parameter h hwritten htypes hparam hname htext =>
    obtain ⟨ret, others, lines, hret, hothers, hlines⟩ := exists_of_isFunctionWritten hwritten
    obtain rfl := Option.some.inj (htypes.symm.trans hothers)
    have hline := List.mem_of_getLast? (getLast?_signature? hlines hret htypes)
    exact (standsInOne_signature h hlines hline).part
      (infix_fill_functionSlot (List.mem_of_getElem? htext) ..)

end Files

/-! Names -/

/-- A name that is not escaped is listed for its position, or is that of an inline record, which has
an underscore in it. -/
theorem DeclaresName.mem_plainNames {position : Position} {slot : Slot} {native text : String}
    (h : DeclaresName config collection position slot native text)
    (hposition : position.escapes = false) :
    native ∈ plainNames config collection position ∨ '_' ∈ native.toList := by
  cases h with
  | constant h htext =>
    have hentry := List.mem_map_of_mem (f := Emitted.entry) h
    rw [map_entry_emitted] at hentry
    exact .inl (List.mem_map_of_mem (f := Prod.fst) hentry)
  | enum h hblock => exact .inl (List.mem_map_of_mem (f := Prod.fst) h)
  | enumMember h hmember htext =>
    exact .inl (List.mem_map_of_mem (List.mem_flatMap.mpr ⟨_, h, hmember⟩))
  | handle h hblock => exact .inl (List.mem_map_of_mem (f := Prod.fst) h)
  | record hsite => exact .inl (List.mem_map_of_mem (f := Prod.fst) (List.of_mem_zip hsite).1)
  | inlineRecord hstruct hsite =>
    obtain ⟨field, _, hnested⟩ := List.mem_flatMap.mp (List.of_mem_zip hsite).1
    obtain ⟨_, _, hname⟩ := List.mem_map.mp hnested
    obtain rfl := (Prod.mk.inj hname).1
    right
    rw [nestedName, String.toList_append, String.toList_append]
    simp
  | function h hret htypes hlines htext =>
    refine .inl (List.mem_map.mpr ⟨_, List.mem_filter.mpr ⟨h, ?_⟩, rfl⟩)
    exact Option.isSome_iff_exists.mpr ⟨_, hlines⟩
  | field => cases hposition
  | parameter => cases hposition

/-- Every listed name is declared in its position, where it is not escaped. -/
theorem exists_declaresName {position : Position} {name : String}
    (h : name ∈ plainNames config collection position) :
    position.escapes = false ∧
      ∃ slot text, DeclaresName config collection position slot name text := by
  cases position with
  | constant =>
    rw [plainNames, ← map_entry_emitted [] _, List.map_map] at h
    obtain ⟨written, hwritten, rfl⟩ := List.mem_map.mp h
    exact ⟨rfl, _, _, .constant hwritten rfl⟩
  | enum =>
    obtain ⟨⟨name, definition⟩, hentry, rfl⟩ := List.mem_map.mp h
    obtain ⟨header, hblock⟩ := exists_block_mem_enumSteps config _ name definition
    exact ⟨rfl, _, _, .enum hentry hblock⟩
  | enumMember =>
    obtain ⟨member, hconstant, rfl⟩ := List.mem_map.mp h
    obtain ⟨⟨name, definition⟩, hentry, hmember⟩ := List.mem_flatMap.mp hconstant
    exact ⟨rfl, _, _, .enumMember hentry hmember List.getLast?_concat⟩
  | handle =>
    obtain ⟨⟨name, kind⟩, hentry, rfl⟩ := List.mem_map.mp h
    obtain ⟨header, body, hblock⟩ := exists_block_mem_handleSteps config name kind
    exact ⟨rfl, _, _, .handle hentry hblock⟩
  | struct =>
    obtain ⟨⟨name, record⟩, hentry, rfl⟩ := List.mem_map.mp h
    obtain ⟨⟨previous, _⟩, hsite, header, body, rfl, -⟩ :=
      exists_mem_zip_of_forall₂ (forall₂_structSites_file config _ _) hentry
    exact ⟨rfl, _, _, .record hsite⟩
  | function =>
    obtain ⟨⟨name, function⟩, hentry, rfl⟩ := List.mem_map.mp h
    obtain ⟨hentry, hwritten⟩ := List.mem_filter.mp hentry
    obtain ⟨ret, types, lines, hret, htypes, hlines⟩ := exists_of_isFunctionWritten hwritten
    exact ⟨rfl, _, _, .function hentry hret htypes hlines (getLast?_signature? hlines hret htypes)⟩
  | field => cases h
  | parameter => cases h

theorem declaresMembers (config : Config) (collection : Collection) :
    DeclaresMembers config collection where
  fields h field hfield := by
    obtain ⟨⟨before, _⟩, hsite, managed, hmap, rfl, -⟩ :=
      exists_mem_zip_of_forall₂ (isAttributed_of_structIn h).fields hfield
    exact ⟨_, _, .field h hsite hmap⟩
  parameters {_ function} h hwritten param native hparam hname := by
    obtain ⟨_, types, _, _, htypes, _⟩ := exists_of_isFunctionWritten hwritten
    obtain ⟨place, hplace⟩ := List.mem_iff_getElem?.mp hparam
    have hmapped := congrArg (fun types => types[place]?) (mapM_eq_some_iff.mp htypes)
    rw [List.getElem?_map, List.getElem?_map, hplace] at hmapped
    obtain ⟨managed, hmanaged, -⟩ := Option.map_eq_some_iff.mp hmapped.symm
    have hboth : (function.params.zip types)[place]? = some (param, managed) :=
      List.getElem?_zip_eq_some.mpr ⟨hplace, hmanaged⟩
    exact ⟨_, _, .parameter h hwritten htypes hboth hname (getElem?_paramTexts hboth)⟩

theorem isEscaped_identifier (name : String) : IsEscaped name (identifier name) :=
  fun hreserved => identifier_of_reserved hreserved

theorem isEscaped_self_iff {name : String} : IsEscaped name name ↔ name ∉ reservedWords := by
  refine ⟨fun hescaped hreserved => ?_, fun hplain hreserved => absurd hreserved hplain⟩
  exact escaped_notMem_reservedWords name (hescaped hreserved ▸ hreserved)

/-- Each declaration of a native name is in one piece in a file, with the name spelled as its
position asks for, and no field and no parameter with a name goes without one. Fields and parameters
are always escaped, so no reserved word is written as such exactly if none is the name of a
constant, an enum or one of its members, a handle, a record or a function. -/
theorem escapesNames_iff (config : Config) (collection : Collection) :
    (∀ position slot native text, DeclaresName config collection position slot native text →
        text = slot.fill (position.spelling native) ∧
          StandsInOne (output config collection).value text) ∧
      DeclaresMembers config collection ∧
      (EscapesNames config collection ↔
        ∀ position, ∀ name ∈ plainNames config collection position, name ∉ reservedWords) := by
  refine ⟨fun _ _ _ _ h => ⟨h.eq_fill, h.standsInOne⟩, declaresMembers config collection, ?_, ?_⟩
  · intro hescapes position name hname
    obtain ⟨hposition, slot, text, hdeclares⟩ := exists_declaresName hname
    have htext : text = slot.fill name := by
      rw [hdeclares.eq_fill, Position.spelling, hposition, if_neg Bool.false_ne_true]
    exact isEscaped_self_iff.mp (hescapes _ _ _ _ _ hdeclares htext)
  · intro hplain position slot native text written hdeclares htext
    rw [hdeclares.eq_fill] at htext
    obtain rfl := slot.injective_fill htext
    cases hposition : position.escapes with
    | true =>
      rw [Position.spelling, hposition, if_pos rfl]
      exact isEscaped_identifier native
    | false =>
      rw [Position.spelling, hposition, if_neg Bool.false_ne_true, isEscaped_self_iff]
      rcases hdeclares.mem_plainNames hposition with hname | hunderscore
      · exact hplain position native hname
      · exact fun hreserved => underscore_notMem_of_reserved native hreserved hunderscore

/-- `void lock(int object);`. -/
def lockFunction : Prototype :=
  { name := "lock", ret := .primitive .void
    params := [⟨some "object", .primitive .int⟩]
    variadic := false, isStatic := false, isInline := false }

def lockCollection : Collection :=
  collected [.function lockFunction]

/-- The parameter is escaped, and the function is not. -/
theorem not_escapesNames_lock :
    signature? (mapperOf Config.standard lockCollection) lockFunction =
        some ["public static extern void lock(int @object);"] ∧
      "lock" ∈ reservedWords ∧ ¬ EscapesNames Config.standard lockCollection := by
  have hlines : signature? (mapperOf Config.standard lockCollection) lockFunction =
      some ["public static extern void lock(int @object);"] := by decide +kernel
  have hword : "lock" ∈ reservedWords := by decide
  have hdeclares : DeclaresName Config.standard lockCollection .function
      (functionSlot "void" ["int"] (paramTexts lockFunction.params ["int"])) "lock"
      "public static extern void lock(int @object);" :=
    .function (List.mem_singleton_self ("lock", lockFunction)) rfl rfl hlines rfl
  refine ⟨hlines, hword, fun hescapes => ?_⟩
  exact absurd (hescapes _ _ _ _ "lock" hdeclares (by decide +kernel) hword) (by decide)

end HeaderInterop.Emit
