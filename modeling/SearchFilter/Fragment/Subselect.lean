import SearchFilter.Catalog.Basic
import SearchFilter.Sql.Text

/-!
# Sub-selects

A filter on values outside the search query selects their entities by a query of its own. Its
columns are the entity and, named for the filtered field, the value, which the condition then
compares. The products searched are the rows of `search_index`.
-/

namespace SearchFilter
open Sql

namespace Fragment

/-- The entities among the rows of `select` that meet the condition. Where `HAVING` sees aliases
the condition filters inside, in the place of any other such condition, otherwise outside. -/
def amongEntities (d : Dialect) (select : Select) (query : String) : String :=
  let condition := "(" ++ query ++ ")"
  let opening := "search_index.entity_id IN (SELECT entity_id FROM ("
  if d.havingSeesAliases then
    opening ++ (select.setHaving (.raw condition)).text d ++ ") AS filter)"
  else opening ++ select.text d ++ ") AS filter WHERE " ++ condition ++ ")"

def column (table name : String) : Expr :=
  .column (some table) name

def integer (n : Int64) : Expr :=
  .value (.int n)

def sameIn (left right name : String) : Expr :=
  .equal (column left name) (column right name)

def indexedValues (c : Catalog) (field identifier : String) (a : Attribute) : Select :=
  Select.ofTable [column "e" "entity_id", .named (column "main_table" "value") field]
      ⟨c.tableName entityTable, some "e"⟩
    |>.join ⟨.inner, ⟨c.tableName a.indexTable, some "main_table"⟩, sameIn "main_table" "e" identifier⟩
    |>.restrict (.equal (column "main_table" "attribute_id") (integer a.id))
    |>.restrict (.equal (column "main_table" "store_id") (integer c.store))

/-- The values of the default store, each replaced by the one of this store if there is one. -/
def storedValues (c : Catalog) (d : Dialect) (field link : String) (a : Attribute) : Select :=
  let value := Expr.call d.ifNull [column "current_store" "value", column "main_table" "value"]
  let table := c.tableName a.valueTable
  Select.ofTable [column "e" "entity_id", .named value field] ⟨c.tableName entityTable, some "e"⟩
    |>.join ⟨.inner, ⟨table, some "main_table"⟩, sameIn "main_table" "e" link⟩
    |>.join ⟨.left, ⟨table, some "current_store"⟩,
      .all [
        sameIn "current_store" "main_table" "attribute_id",
        .equal (column "current_store" "store_id") (integer c.store),
        sameIn "current_store" "main_table" link]⟩
    |>.restrict (.equal (column "main_table" "attribute_id") (integer a.id))
    |>.restrict (.equal (column "main_table" "store_id") (integer defaultStore))

end Fragment

end SearchFilter
