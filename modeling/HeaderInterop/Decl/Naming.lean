import HeaderInterop.Decl.Basic

/-!
Names of unnamed tags. A typedef right behind an unnamed record or enum, whose underlying type is
that tag, is where the tag gets its name from.
-/

namespace HeaderInterop.Decl

/-- Whether a tag may be the one that the typedef names. -/
def namesTag (naming : Typedef) (tag : Option String) : Bool :=
  tag.all (· = naming.name)

/-- A typedef whose underlying type is a typedef of its own name. -/
def isSelfTypedef (naming : Typedef) : Bool :=
  match naming.underlying.unqualified with
  | .typedef name => name = naming.name
  | _ => false

def namesRecord (naming : Typedef) : Bool :=
  isSelfTypedef naming ||
    match naming.underlying.unqualified with
    | .record _ tag => namesTag naming tag
    | _ => false

def namesEnum (naming : Typedef) : Bool :=
  isSelfTypedef naming ||
    match naming.underlying.unqualified with
    | .enum tag => namesTag naming tag
    | _ => false

/-- The two declarations after the typedef has named the tag before it, if it names one. -/
def namePair (decl : Decl) (naming : Typedef) : Decl × Typedef :=
  match decl with
  | .record definition =>
    if definition.name.isNone && namesRecord naming then
      (.record { definition with name := some naming.name },
        { naming with underlying := .record definition.kind (some naming.name) })
    else (decl, naming)
  | .enum definition =>
    if definition.name.isNone && namesEnum naming then
      (.enum { definition with name := some naming.name },
        { naming with underlying := .enum (some naming.name) })
    else (decl, naming)
  | _ => (decl, naming)

/-- Names every unnamed tag that the typedef right behind it names. -/
def nameTags : List Decl → List Decl
  | decl :: .typedef naming :: rest =>
    let named := namePair decl naming
    named.1 :: nameTags (.typedef named.2 :: rest)
  | decl :: rest => decl :: nameTags rest
  | [] => []
  termination_by decls => decls.length

end HeaderInterop.Decl
