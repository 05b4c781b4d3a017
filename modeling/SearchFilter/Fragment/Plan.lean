import SearchFilter.Catalog.Format
import SearchFilter.Filter.Basic

/-!
# Plans

Where the values live that a filter compares with, which decides the shape of its fragment.
-/

namespace SearchFilter
open Json

inductive Plan
  /-- The joined index of prices. -/
  | price
  /-- The joined index of categories. -/
  | category
  /-- The joined index of visibilities. -/
  | visibility
  /-- A column of the entity table. -/
  | entityColumn (a : Attribute)
  /-- The joined table of the options chosen. -/
  | chosenOption (a : Attribute)
  /-- A sub-select on the values prepared for ranges. -/
  | indexedRange (a : Attribute)
  /-- A sub-select on the values as they are stored, those of the default store included. -/
  | storedValue (a : Attribute)
  deriving DecidableEq, Repr

namespace Plan

def name : Plan → String
  | price => "price"
  | category => "category_ids"
  | visibility => "visibility"
  | entityColumn _ => "static"
  | chosenOption _ => "select_term"
  | indexedRange _ => "numeric_range"
  | storedValue _ => "dynamic"

def attribute? : Plan → Option Attribute
  | price | category | visibility => none
  | entityColumn a | chosenOption a | indexedRange a | storedValue a => some a

def reserved? (field : String) : Option Plan :=
  if field = priceField then some price
  else if field = categoryField then some category
  else if field = visibilityField then some visibility
  else none

def ofAttribute (kind : FilterKind) (a : Attribute) : Plan :=
  if a.isStatic then entityColumn a
  else if kind = .term ∧ a.input.isSelection then chosenOption a
  else if kind = .range ∧ a.storage.isNumeric then indexedRange a
  else storedValue a

def toJson (p : Plan) : Node :=
  .record (("strategy", .text p.name) :: (p.attribute?.map fun a => ("attribute", a.toJson)).toList)

end Plan

inductive CompileError
  | unknownAttribute (field entity : String)
  | unknownLinks (entity : String)
  deriving DecidableEq, Repr

def CompileError.message : CompileError → String
  | unknownAttribute field entity => "Attribute '" ++ field ++ "' not found for entity '" ++ entity ++ "'"
  | unknownLinks entity => "Cannot resolve link field for entity '" ++ entity ++ "'"

namespace Catalog

def findAttribute (c : Catalog) (entity code : String) : Except CompileError Attribute :=
  match c.attribute? entity code with
  | some a => .ok a
  | none => .error (.unknownAttribute code entity)

def findLinks (c : Catalog) (entity : String) : Except CompileError Links :=
  match c.links? entity with
  | some links => .ok links
  | none => .error (.unknownLinks entity)

/-- The field decides if it is reserved, otherwise its attribute does. -/
def plan (c : Catalog) (f : Filter) : Except CompileError Plan :=
  match Plan.reserved? f.field with
  | some p => .ok p
  | none => (c.findAttribute productEntity f.field).map (Plan.ofAttribute f.kind)

end Catalog

end SearchFilter
