import HeaderInterop.Decl.OfNode
import HeaderInterop.Decl.Naming
import HeaderInterop.Macro.Basic

/-!
What is needed of one header: its macros, its own declarations, and those of the other headers that
it includes, which resolve types but are not bindings of this header.
-/

namespace HeaderInterop

structure Header where
  path : Path
  macros : List Macro
  decls : List Decl
  included : List Decl
deriving Repr

namespace Header

open Ast (Node)

/-- Whether the node stands in a file under the scope. -/
def nodeUnder (scope : Path) (node : Node) : Bool :=
  node.kind.file?.any fun file => file.startsWith scope

/-- The named declarations of the kept nodes. -/
def extract (keep : Node → Bool) (nodes : List Node) : Logged (List Decl) :=
  let decls := Decl.ofNodes (nodes.filter keep)
  ⟨Decl.nameTags decls.value, decls.events⟩

/-- The header of a translation unit. With a scope, the declarations in `path` itself are its own
and the others under the scope are included; without one, all are its own. -/
def ofAst (path : Path) (unit : Node) (macros : List Macro) (scope : Option Path) : Logged Header :=
  match scope with
  | none =>
    let decls := extract (fun _ => true) unit.inner
    ⟨{ path, macros, decls := decls.value, included := [] }, decls.events⟩
  | some scope =>
    let decls := extract (nodeUnder path) unit.inner
    let included :=
      extract (fun node => nodeUnder scope node && !nodeUnder path node) unit.inner
    ⟨{ path, macros, decls := decls.value, included := included.value },
      decls.events ++ included.events⟩

end Header

end HeaderInterop
