import SearchFilter.Catalog.Basic
import SearchFilter.Json.Shape

/-!
# Catalogs in JSON
-/

namespace SearchFilter
open Json

def Storage.ofJson? (x : Node) : Option Storage :=
  x.name?.bind ofName?

/-- Any text is an input, but only a known one may be the key of an object. -/
def Input.ofJson? : Node → Option Input
  | .string ps => (Piece.text? ps).map ofName
  | x => x.name?.bind ofKnownName?

namespace Attribute

def toJson (a : Attribute) : Node :=
  .record [
    ("code", .text a.code),
    ("attribute_id", .integer a.id),
    ("backend_type", .text a.storage.name),
    ("frontend_input", .text a.input.name),
    ("backend_table", (a.table.map Node.text).getD .null)]

def ofJson? (x : Node) : Option Attribute := do
  match ← x.fields? ["code", "attribute_id", "backend_type", "frontend_input", "backend_table"] with
  | [some code, some id, some storage, some input, table] =>
    return ⟨← code.text?, ← id.integer?, ← Storage.ofJson? storage, ← Input.ofJson? input,
      ← Node.orElse? none (Node.optional? Node.text?) table⟩
  | _ => none

end Attribute

def Links.ofJson? (x : Node) : Option Links := do
  match ← x.fields? ["link_field", "identifier_field"] with
  | [some link, some identifier] => return ⟨← link.text?, ← identifier.text?⟩
  | _ => none

/-- A dictionary keeps the last value of a key. -/
def Keyed.ofJson? {α : Type} (item? : Node → Option α) (x : Node) : Option (Keyed α) :=
  (x.entries? item?).map Keyed.ofPairs

namespace Catalog

def ofJson? (x : Node) : Option Catalog := do
  match ← x.fields? ["table_prefix", "store_id", "entities", "attributes", "flags"] with
  | [tablePrefix, store, entities, attributes, flags] =>
    return ⟨← Node.orElse? empty.tablePrefix Node.text? tablePrefix,
      ← Node.orElse? empty.store Node.integer? store,
      ← Node.orElse? empty.entities (Keyed.ofJson? Links.ofJson?) entities,
      ← Node.orElse? empty.attributes (Node.list? Attribute.ofJson?) attributes,
      ← Node.orElse? empty.flags (Keyed.ofJson? Node.bool?) flags⟩
  | _ => none

def parse? (source : String) : Option Catalog :=
  (Node.parse? source).bind ofJson?

end Catalog

end SearchFilter
