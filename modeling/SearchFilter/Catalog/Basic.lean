import SearchFilter.Catalog.Attribute
import SearchFilter.Keyed

/-!
# Catalogs

What the compiler knows of a shop: its tables, its entities, the attributes of its products and
the settings of the store it compiles for.
-/

namespace SearchFilter

/-- The store whose values stand in for those that other stores lack. -/
def defaultStore : Int64 := 0

def showOutOfStock : String := "cataloginventory/options/show_out_of_stock"

/-- The columns that identify an entity: in the tables of its values, and to the outside. -/
structure Links where
  linkField : String
  identifierField : String
  deriving DecidableEq, Repr

inductive ScopeKind
  | default
  | website
  | store
  deriving DecidableEq, Repr

structure Catalog where
  tablePrefix : String
  store : Int64
  entities : Keyed Links
  attributes : List Attribute
  flags : Keyed Bool
  deriving DecidableEq, Repr

namespace Catalog

def defaultEntities : Keyed Links :=
  [(productEntity, ⟨"entity_id", "entity_id"⟩)]

def empty : Catalog :=
  ⟨"", defaultStore, defaultEntities, [], []⟩

def putAttribute (c : Catalog) (a : Attribute) : Catalog :=
  { c with attributes := c.attributes.filter (·.code ≠ a.code) ++ [a] }

def setStore (c : Catalog) (store : Int64) : Catalog :=
  { c with store }

def putFlag (c : Catalog) (path : String) (flag : Bool) : Catalog :=
  { c with flags := c.flags.put path flag }

def setTablePrefix (c : Catalog) (tablePrefix : String) : Catalog :=
  { c with tablePrefix }

def putEntity (c : Catalog) (entity : String) (links : Links) : Catalog :=
  { c with entities := c.entities.put entity links }

/-- Only products have attributes; the first with the code is taken. -/
def attribute? (c : Catalog) (entity code : String) : Option Attribute :=
  if entity = productEntity then c.attributes.find? (·.code = code) else none

def links? (c : Catalog) (entity : String) : Option Links :=
  c.entities.get? entity

/-- A flag that is not set is off. Flags are the same at every level. -/
def flag (c : Catalog) (path : String) (_ : ScopeKind) : Bool :=
  (c.flags.get? path).getD false

def tableName (c : Catalog) (name : String) : String :=
  c.tablePrefix ++ name

def hidesOutOfStock (c : Catalog) : Bool :=
  !c.flag showOutOfStock .store

end Catalog

end SearchFilter
