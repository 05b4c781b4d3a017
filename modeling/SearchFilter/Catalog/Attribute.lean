/-!
# Attributes

An attribute describes a field of a product: where its values are stored and how they are edited.
-/

namespace SearchFilter

def productEntity : String := "catalog_product"

def entityTable : String := "catalog_product_entity"

inductive Storage
  | static
  | varchar
  | int
  | decimal
  | text
  | datetime
  deriving DecidableEq, Repr

namespace Storage

def name : Storage → String
  | static => "static"
  | varchar => "varchar"
  | int => "int"
  | decimal => "decimal"
  | text => "text"
  | datetime => "datetime"

def all : List Storage := [static, varchar, int, decimal, text, datetime]

def ofName? (s : String) : Option Storage :=
  all.find? (·.name = s)

theorem ofName?_name (s : Storage) : ofName? s.name = some s := by
  cases s <;> decide

def isNumeric (s : Storage) : Bool :=
  s = int || s = decimal

end Storage

inductive Input
  | select
  | multiselect
  | text
  | textarea
  | price
  | date
  | boolean
  | weight
  | other (name : String)
  deriving DecidableEq, Repr

namespace Input

def name : Input → String
  | select => "select"
  | multiselect => "multiselect"
  | text => "text"
  | textarea => "textarea"
  | price => "price"
  | date => "date"
  | boolean => "boolean"
  | weight => "weight"
  | other s => s

def known : List Input := [select, multiselect, text, textarea, price, date, boolean, weight]

def ofKnownName? (s : String) : Option Input :=
  known.find? (·.name = s)

def ofName (s : String) : Input :=
  (ofKnownName? s).getD (other s)

theorem ofName_name_of_mem_known {i : Input} (h : i ∈ known) : ofName i.name = i := by
  simp only [known, List.mem_cons, List.not_mem_nil, or_false] at h
  rcases h with rfl | rfl | rfl | rfl | rfl | rfl | rfl | rfl <;> decide

def isSelection (i : Input) : Bool :=
  i = select || i = multiselect

end Input

structure Attribute where
  code : String
  id : Int64
  storage : Storage
  input : Input
  /-- The table of the values, where it is not the usual one for the storage. -/
  table : Option String
  deriving DecidableEq, Repr

namespace Attribute

def isStatic (a : Attribute) : Bool :=
  a.storage = .static

/-- Static attributes are columns of the entity table; the others have a table for each storage. -/
def valueTable (a : Attribute) : String :=
  match a.table with
  | some table => table
  | none => if a.isStatic then entityTable else entityTable ++ "_" ++ a.storage.name

def indexTable (a : Attribute) : String :=
  if a.storage = .decimal then "catalog_product_index_eav_decimal" else "catalog_product_index_eav"

end Attribute

end SearchFilter
