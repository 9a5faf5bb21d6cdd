import HeaderInterop.Path

/-!
The compiler's syntax tree, reduced to what declarations need: the kinds of node that can take part
in a binding, the file each of them stands in, and the types as printed. Any other node keeps only
the name of its kind and its children.
-/

namespace HeaderInterop.Ast

/-- `file` is the file that the node's location points into, when it has one. -/
inductive NodeKind where
  | translationUnit
  | typedef (file : Option Path) (name type : String)
  | function (file : Option Path) (name : String) (storage : Option String) (type : String)
      (variadic isInline : Bool)
  | record (file : Option Path) (name tag : Option String) (complete : Bool)
  | field (file : Option Path) (name : Option String) (type : String) (isBitField : Bool)
  | enum (file : Option Path) (name fixedType : Option String)
  | enumConstant (file : Option Path) (name type : String)
  | param (file : Option Path) (name : Option String) (type : String)
  | constantExpr (value : Option String)
  | integerLiteral (value : Option String)
  | other (kind : Option String)
deriving DecidableEq, Repr

namespace NodeKind

def file? : NodeKind → Option Path
  | typedef file .. | function file .. | record file .. | field file .. | enum file ..
  | enumConstant file .. | param file .. => file
  | translationUnit | constantExpr _ | integerLiteral _ | other _ => none

def name? : NodeKind → Option String
  | typedef _ name _ | function _ name .. | enumConstant _ name _ => some name
  | record _ name .. | field _ name .. | enum _ name _ | param _ name _ => name
  | translationUnit | constantExpr _ | integerLiteral _ | other _ => none

end NodeKind

inductive Node where
  | mk (kind : NodeKind) (inner : List Node)
deriving Repr

namespace Node

def kind : Node → NodeKind
  | mk kind _ => kind

def inner : Node → List Node
  | mk _ inner => inner

end Node

end HeaderInterop.Ast
