import HeaderInterop.Config.Default
import HeaderInterop.Proofs.Collection.Handles
import HeaderInterop.Proofs.Registry
import HeaderInterop.Proofs.Decl.Records

/-!
Which records count as defined, told from the translation units. A definition counts when it stands
at the top of a unit and converts, or has no name of its own and gets one from a typedef. One that
is skipped, or that stands inside another record, does not, and the record is opaque as far as the
other declarations of it are concerned.
-/

namespace HeaderInterop

open Ast (Node)

/-- A parsed header file, with the directory that the headers of interest are in. -/
structure TranslationUnit where
  path : Path
  root : Node
  macros : List Macro
  scope : Option Path

namespace TranslationUnit

def header (unit : TranslationUnit) : Header :=
  (Header.ofAst unit.path unit.root unit.macros unit.scope).value

/-- The nodes of the header's own declarations. -/
def own (unit : TranslationUnit) : List Node :=
  match unit.scope with
  | none => unit.root.inner
  | some _ => unit.root.inner.filter (Header.nodeUnder unit.path)

/-- The nodes of the declarations in the other headers of the scope. -/
def included (unit : TranslationUnit) : List Node :=
  match unit.scope with
  | none => []
  | some scope => unit.root.inner.filter fun node =>
    Header.nodeUnder scope node && !Header.nodeUnder unit.path node

/-- A complete record of the name is at the node, or inside the record that the node is. -/
inductive NodeDefines (name : String) : Node → Prop where
  | here {node} (definition : Decl.isDefinition name node = true) : NodeDefines name node
  | inside {file tagName tag complete inner child} (member : child ∈ inner)
      (definition : NodeDefines name child) :
      NodeDefines name (.mk (.record file tagName tag complete) inner)

/-- The unit has a complete record of the name among its headers of interest. -/
def HasDefinition (name : String) (unit : TranslationUnit) : Prop :=
  ∃ node ∈ unit.included ++ unit.own, NodeDefines name node

/-- The nodes have a complete record of the name that counts: all of it can be converted, or it is
without a name and the next declaration is a typedef that names it. -/
def CountsAmong (name : String) (nodes : List Node) : Prop :=
  (∃ node ∈ nodes, Decl.isDefinition name node = true ∧ Decl.allConvertible node.inner = true) ∨
    ∃ decl naming, [decl, .typedef naming] <:+: (Decl.ofNodes nodes).value ∧
      decl.definesBy naming name = true

theorem header_decls (unit : TranslationUnit) :
    unit.header.decls = Decl.nameTags (Decl.ofNodes unit.own).value := by
  obtain ⟨path, root, macros, scope⟩ := unit
  cases scope with
  | none =>
    have hkept : root.inner.filter (fun _ => true) = root.inner :=
      List.filter_eq_self.mpr fun _ _ => rfl
    simp only [header, Header.ofAst, Header.extract, own, hkept]
  | some scope => rfl

theorem header_included (unit : TranslationUnit) :
    unit.header.included = Decl.nameTags (Decl.ofNodes unit.included).value := by
  obtain ⟨path, root, macros, scope⟩ := unit
  cases scope with
  | none => simp [header, Header.ofAst, included, Decl.ofNodes, Decl.nameTags]
  | some scope => rfl

theorem any_defines_extracted {name : String} (nodes : List Node) :
    (Decl.nameTags (Decl.ofNodes nodes).value).any (Decl.defines name) = true ↔
      CountsAmong name nodes := by
  rw [Decl.any_defines_nameTags, Decl.IsDefinedAmong, Decl.any_defines_ofNodes]
  rfl

theorem any_defines_stream {name : String} (units : List TranslationUnit) :
    (Registry.stream (units.map header)).any (Decl.defines name) = true ↔
      ∃ unit ∈ units, CountsAmong name unit.included ∨ CountsAmong name unit.own := by
  rw [Registry.stream, List.any_flatMap, List.any_map, List.any_eq_true]
  simp only [Function.comp_apply, List.any_append, Bool.or_eq_true, header_decls, header_included,
    any_defines_extracted]

/-- A name is not opaque, and has no opaque handle, exactly when one of the units has a definition
of it that counts. -/
theorem not_opaque_iff (settings : CollectSettings) (units : List TranslationUnit) (name : String) :
    ((Registry.registerAll (units.map header)).isOpaque name = false ∧
        (name, .opaqueRecord) ∉
          (Collection.ofHeaders settings (units.map header)).value.handles.entries) ↔
      ∃ unit ∈ units, CountsAmong name unit.included ∨ CountsAmong name unit.own := by
  rw [← any_defines_stream, Registry.isOpaque_registerAll, Bool.not_eq_false']
  constructor
  · intro h
    exact h.1
  · intro hdefined
    refine ⟨hdefined, fun hhandle => ?_⟩
    have hopaque := Collection.isOpaque_of_mem_handles hhandle
    rw [Registry.isOpaque_registerAll, hdefined] at hopaque
    cases hopaque

/-- A forward declaration, and a definition with a bit-field. -/
def skippedDefinition : TranslationUnit where
  path := "/include/a.h"
  root := .mk .translationUnit
    [.mk (.record none (some "Flags") (some "struct") false) [],
      .mk (.record none (some "Flags") (some "struct") true)
        [.mk (.field none (some "on") "int" true) []]]
  macros := []
  scope := none

theorem isOpaque_skippedDefinition :
    HasDefinition "Flags" skippedDefinition ∧
      (Registry.registerAll [skippedDefinition.header]).isOpaque "Flags" = true ∧
      ("Flags", .opaqueRecord) ∈ (Collection.ofHeaders Config.standard.collect
        [skippedDefinition.header]).value.handles.entries := by
  have hdecls : (Decl.ofNodes skippedDefinition.own).value =
      [.record ⟨some "Flags", .struct, false, []⟩] := rfl
  have hheader : skippedDefinition.header =
      ⟨"/include/a.h", [], [.record ⟨some "Flags", .struct, false, []⟩], []⟩ := by
    have hnamed : skippedDefinition.header.decls =
        [.record ⟨some "Flags", .struct, false, []⟩] := by
      rw [header_decls, hdecls]
      simp [Decl.nameTags]
    rw [← hnamed]
    rfl
  rw [hheader]
  refine ⟨?_, rfl, ?_⟩
  · exact ⟨_, List.mem_append_right _ (List.mem_cons_of_mem _ (List.mem_cons_self ..)), .here rfl⟩
  · exact List.mem_cons_self ..

end TranslationUnit

end HeaderInterop
