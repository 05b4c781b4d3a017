import SearchFilter.Fragment.Plan
import SearchFilter.Fragment.Subselect
import SearchFilter.Fragment.Terms
import SearchFilter.Query.Anchor

/-!
# Fragments

A fragment is the condition that a filter puts on the search query. The caller renders a
condition on the bare name of the field; the fragment is that condition moved to the table which
holds the field, or made from the filter's operand instead.
-/

namespace SearchFilter
namespace Fragment

def minPriceColumn : String := "price_index.min_price"

/-- The fragment for a plan. Only terms heed the negation, and only they and categories the operand. -/
def ofPlan (c : Catalog) (d : Dialect) (tableAlias : String) (f : Filter) (negated : Bool) (query : String) :
    Plan → Except CompileError String
  | .price => .ok (Query.anchor d priceField minPriceColumn query)
  | .category => .ok (tableAlias ++ ".category_id = " ++ (Value.int f.operand.integer).display)
  | .visibility => .ok (tableAlias ++ "." ++ query)
  | .entityColumn a => .ok (Query.anchor d a.code (tableAlias ++ "." ++ a.code) query)
  | .chosenOption _ =>
    let fragment := terms d tableAlias f.operand negated
    .ok (if c.hidesOutOfStock then andInStock fragment tableAlias else fragment)
  | .indexedRange a => do
    let links ← c.findLinks productEntity
    return amongEntities d (indexedValues c f.field links.identifierField a) query
  | .storedValue a => do
    let links ← c.findLinks productEntity
    return amongEntities d (storedValues c d f.field links.linkField a) query

end Fragment

def Catalog.compile (c : Catalog) (d : Dialect) (aliasOf : Filter → String) (f : Filter) (negated : Bool)
    (query : String) : Except CompileError String := do
  Fragment.ofPlan c d (aliasOf f) f negated query (← c.plan f)

end SearchFilter
