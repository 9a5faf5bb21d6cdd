import HeaderInterop.CType.Basic

/-!
Declarations of a header: typedefs, records, enums and functions, with their types parsed. A record
may define another record inside a field.
-/

namespace HeaderInterop

structure Typedef where
  name : String
  underlying : CType
deriving Repr

mutual

structure Record where
  name : Option String
  kind : RecordKind
  /-- False for a forward declaration. -/
  complete : Bool
  fields : List Field
deriving Repr

structure Field where
  name : String
  type : CType
  /-- The record that is defined in this field. -/
  nested : Option Record
deriving Repr

end

/-- A record without a definition, or without fields, has no size. -/
def Record.isZeroSized (record : Record) : Bool :=
  !record.complete || record.fields.isEmpty

structure EnumConstant where
  name : String
  value : Int
deriving DecidableEq, Repr

structure Enumeration where
  name : Option String
  /-- The type of its values, when the header fixes it. -/
  underlying : Option CType
  constants : List EnumConstant
deriving Repr

structure Param where
  name : Option String
  type : CType
deriving Repr

/-- A function's declaration. -/
structure Prototype where
  name : String
  ret : CType
  params : List Param
  variadic : Bool
  isStatic : Bool
  isInline : Bool
deriving Repr

inductive Decl where
  | typedef (definition : Typedef)
  | record (definition : Record)
  | enum (definition : Enumeration)
  | function (definition : Prototype)
deriving Repr

end HeaderInterop
