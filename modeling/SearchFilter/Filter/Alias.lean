import SearchFilter.Filter.Basic

/-!
# Aliases of joined tables

The search query joins one table per filtered field. Its alias is the field with a suffix, except
for prices and categories, whose index tables have aliases of their own. The stock table joined
beside it has the alias with one more suffix.
-/

namespace SearchFilter

def filterSuffix : String := "_filter"
def stockSuffix : String := "_stock"

def joinAlias (field : String) : String :=
  if field = priceField then "price_index"
  else if field = categoryField then "category_ids_index"
  else field ++ filterSuffix

def Filter.tableAlias (f : Filter) : String := joinAlias f.field

def stockAlias (tableAlias : String) : String := tableAlias ++ stockSuffix

end SearchFilter
