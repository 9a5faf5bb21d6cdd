import HeaderInterop.Proofs.Decl.InPlace

/-!
What a header takes from its translation unit. Each node goes to the header's own declarations, to
the included ones or to neither, and both lists hold what their nodes convert to, in the order of
the nodes, with the unnamed tags named in place.
-/

namespace HeaderInterop.Header

open Ast (Node)

/-- The file that the node stands in is the path or below it. -/
def IsUnder (path : Path) (node : Node) : Prop :=
  ∃ file, node.kind.file? = some file ∧ path.components <+: file.components

theorem nodeUnder_iff {path : Path} {node : Node} :
    nodeUnder path node = true ↔ IsUnder path node := by
  simp only [nodeUnder, IsUnder, Option.any_eq_true, Path.startsWith, List.isPrefixOf_iff_prefix]

/-- Without a scope all nodes are the header's own, with one those in the header itself. -/
def IsOwn (path : Path) : Option Path → Node → Prop
  | none, _ => True
  | some _, node => IsUnder path node

/-- The nodes of the other headers under the scope. -/
def IsIncluded (path : Path) : Option Path → Node → Prop
  | none, _ => False
  | some scope, node => IsUnder scope node ∧ ¬ IsUnder path node

/-- One declaration for each node that is kept and can be converted, in the order of the nodes. -/
inductive Converts (Keeps : Node → Prop) : List Node → List Decl → Prop where
  | nil : Converts Keeps [] []
  | kept {node nodes decl decls} (keeps : Keeps node) (declared : Decl.declared? node = some decl)
      (rest : Converts Keeps nodes decls) : Converts Keeps (node :: nodes) (decl :: decls)
  | skipped {node nodes decls} (skips : ¬ Keeps node ∨ Decl.declared? node = none)
      (rest : Converts Keeps nodes decls) : Converts Keeps (node :: nodes) decls

theorem converts_ofNodes {Keeps : Node → Prop} {keep : Node → Bool}
    (hkeep : ∀ node, keep node = true ↔ Keeps node) (nodes : List Node) :
    Converts Keeps nodes (Decl.ofNodes (nodes.filter keep)).value := by
  rw [Decl.ofNodes_value]
  induction nodes with
  | nil => exact .nil
  | cons node nodes ih =>
    by_cases hnode : keep node = true
    · rw [List.filter_cons_of_pos hnode]
      cases hdeclared : Decl.declared? node with
      | none =>
        rw [List.filterMap_cons_none hdeclared]
        exact .skipped (Or.inr hdeclared) ih
      | some decl =>
        rw [List.filterMap_cons_some hdeclared]
        exact .kept ((hkeep node).mp hnode) hdeclared ih
    · rw [List.filter_cons_of_neg hnode]
      exact .skipped (Or.inl fun hkeeps => hnode ((hkeep node).mpr hkeeps)) ih

/-- The declarations are those of the kept nodes, named in place, and naming finds nothing more to
do among them. -/
structure IsExtracted (Keeps : Node → Prop) (nodes : List Node) (decls : List Decl) : Prop where
  named : ∃ converted, Converts Keeps nodes converted ∧ Decl.NamedInPlace converted decls
  settled : Decl.nameTags decls = decls

theorem extract_isExtracted {Keeps : Node → Prop} {keep : Node → Bool}
    (hkeep : ∀ node, keep node = true ↔ Keeps node) (nodes : List Node) :
    IsExtracted Keeps nodes (extract keep nodes).value where
  named := ⟨_, converts_ofNodes hkeep nodes, Decl.namedInPlace_nameTags _⟩
  settled := Decl.nameTags_nameTags _

theorem converts_nil {Keeps : Node → Prop} (hnone : ∀ node, ¬ Keeps node) (nodes : List Node) :
    Converts Keeps nodes [] := by
  induction nodes with
  | nil => exact .nil
  | cons node nodes ih => exact .skipped (Or.inl (hnone node)) ih

/-- The two lists of a header, for any unit, path and scope, and that they share no node. This says
nothing of the numbers in an enum; they are counted without a bound, so an enum with the largest
number of 128 bits, behind which a count in words has no number, is here like any other. -/
theorem ofAst_isExtracted (path : Path) (unit : Node) (macros : List Macro)
    (scope : Option Path) :
    IsExtracted (IsOwn path scope) unit.inner (ofAst path unit macros scope).value.decls ∧
      IsExtracted (IsIncluded path scope) unit.inner
        (ofAst path unit macros scope).value.included ∧
      ∀ node, ¬ (IsOwn path scope node ∧ IsIncluded path scope node) := by
  cases scope with
  | none =>
    have hempty : Decl.nameTags [] = [] := List.eq_nil_of_length_eq_zero (Decl.length_nameTags [])
    refine ⟨extract_isExtracted (fun _ => ?_) unit.inner, ⟨⟨[], ?_, ?_⟩, hempty⟩, fun _ h => h.2⟩
    · simp [IsOwn]
    · exact converts_nil (fun _ => id) unit.inner
    · have hnamed := Decl.namedInPlace_nameTags []
      rwa [hempty] at hnamed
  | some scope =>
    refine ⟨extract_isExtracted (fun _ => nodeUnder_iff) unit.inner,
      extract_isExtracted (fun _ => ?_) unit.inner, fun _ h => h.2.2 h.1⟩
    rw [Bool.and_eq_true, nodeUnder_iff, Bool.not_eq_true', ← Bool.not_eq_true, nodeUnder_iff]
    rfl

end HeaderInterop.Header
