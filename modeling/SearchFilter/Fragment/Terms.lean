import SearchFilter.Dialect
import SearchFilter.Filter.Alias

/-!
# Comparisons with terms

The value column of a joined table is compared with one value or a list of values.
-/

namespace SearchFilter

/-- The `stock_status` of products in stock. -/
def inStock : Int64 := 1

namespace Fragment

def comparison (d : Dialect) (negated : Bool) : Operand → String
  | .one v => (if negated then "!= " else "= ") ++ d.quoteValue v
  | .set vs => (if negated then "NOT IN (" else "IN (") ++ ",".intercalate (vs.map d.quoteValue) ++ ")"

def terms (d : Dialect) (tableAlias : String) (operand : Operand) (negated : Bool) : String :=
  tableAlias ++ ".value " ++ comparison d negated operand

/-- Only products in stock, by the stock table joined beside the alias. -/
def andInStock (fragment tableAlias : String) : String :=
  fragment ++ " AND " ++ stockAlias tableAlias ++ ".stock_status = " ++ (Value.int inStock).display

end Fragment

end SearchFilter
