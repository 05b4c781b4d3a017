import SearchFilter.Dialect

/-!
# SQL queries

The expressions and queries that fragments are built from.
-/

namespace SearchFilter.Sql

inductive Expr
  | column (qualifier : Option String) (name : String)
  | value (v : Value)
  | equal (left right : Expr)
  | all (parts : List Expr)
  | call (function : String) (args : List Expr)
  | named (e : Expr) (label : String)
  | raw (text : String)
  deriving Repr

structure Table where
  name : String
  label : Option String
  deriving DecidableEq, Repr

inductive JoinKind
  | inner
  | left
  deriving DecidableEq, Repr

structure Join where
  kind : JoinKind
  table : Table
  on : Expr
  deriving Repr

structure Select where
  columns : List Expr
  source : Option Table
  joins : List Join
  condition : Option Expr
  having : Option Expr
  deriving Repr

namespace Select

def ofTable (columns : List Expr) (source : Table) : Select :=
  ⟨columns, some source, [], none, none⟩

def join (s : Select) (j : Join) : Select :=
  { s with joins := s.joins ++ [j] }

/-- One more condition beside those there are; a list of conditions takes it in. -/
def restrict (s : Select) (e : Expr) : Select :=
  { s with
    condition :=
      match s.condition with
      | none => some e
      | some (.all parts) => some (.all (parts ++ [e]))
      | some old => some (.all [old, e]) }

def setHaving (s : Select) (e : Expr) : Select :=
  { s with having := some e }

end Select

end SearchFilter.Sql
