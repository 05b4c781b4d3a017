import SearchFilter.Sql.Syntax

/-!
# The text of SQL queries
-/

namespace SearchFilter.Sql

mutual

def Expr.text (d : Dialect) : Expr → String
  | .column none name => d.quoteName name
  | .column (some qualifier) name => d.quoteName qualifier ++ "." ++ d.quoteName name
  | .value v => d.quoteValue v
  | .equal left right => "(" ++ left.text d ++ " = " ++ right.text d ++ ")"
  | .all parts => " AND ".intercalate (texts d parts)
  | .call function args => function ++ "(" ++ ", ".intercalate (texts d args) ++ ")"
  | .named e label => e.text d ++ " AS " ++ d.quoteName label
  | .raw text => text

def texts (d : Dialect) : List Expr → List String
  | [] => []
  | e :: es => e.text d :: texts d es

end

def Table.text (d : Dialect) (t : Table) : String :=
  match t.label with
  | none => d.quoteName t.name
  | some label => d.quoteName t.name ++ " AS " ++ d.quoteName label

def JoinKind.text : JoinKind → String
  | .inner => "INNER JOIN"
  | .left => "LEFT JOIN"

def Join.text (d : Dialect) (j : Join) : String :=
  j.kind.text ++ " " ++ j.table.text d ++ " ON " ++ j.on.text d

def clause (before : String) : Option String → String
  | none => ""
  | some text => before ++ text

def Select.text (d : Dialect) (s : Select) : String :=
  "SELECT " ++ ", ".intercalate (texts d s.columns) ++
    clause " FROM " (s.source.map (Table.text d)) ++
    String.join (s.joins.map fun j => " " ++ j.text d) ++
    clause " WHERE " (s.condition.map (Expr.text d)) ++
    clause " HAVING " (s.having.map (Expr.text d))

end SearchFilter.Sql
