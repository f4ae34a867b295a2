import GameBridge.Json.Document

/-!
# Reading records

A record has named fields in a fixed order. It can be written as an object, with its members in
any order, or as an array of the fields in their order, from which only the last ones that may be
missing can be left out.

`Layout.fields?` decides whether a document has the shape of a record and gives its fields by
name. What the fields hold is left to the reader of the record.
-/

namespace GameBridge.Json

/-- What a record may be made of. -/
structure Layout where
  /-- The names of the fields in their order. -/
  names : List String
  /-- How many of the first fields an array has to hold. -/
  required : Nat
  /-- Whether members with other names are refused. -/
  closed : Bool

namespace Layout

/-- How many members have a name. -/
def count (name : String) (members : Document.Members) : Nat :=
  members.countP fun member ↦ member.1 == some name

/-- Whether a member is one that the record may have. -/
def admits (layout : Layout) (name : Option String) : Bool :=
  match name with
  | some name => layout.names.contains name || !layout.closed
  | none => false

/-- The fields of a record by name, if the document has the shape of one. -/
def fields? (layout : Layout) : Document → Option (String → Option Document)
  | .obj members =>
    if members.all (fun member ↦ layout.admits member.1)
        && layout.names.all (fun name ↦ count name members ≤ 1) then
      some fun name ↦ members.lookup (some name)
    else none
  | .arr items =>
    if layout.required ≤ items.length ∧ items.length ≤ layout.names.length then
      some fun name ↦ (layout.names.zip items).lookup name
    else none
  | _ => none

end Layout

end GameBridge.Json
