import SearchFilter.Filter.Basic
import SearchFilter.Json.Shape

/-!
# Filters in JSON

Values are plain JSON values and a set is an array of them. A number that is not finite is
written as `null`.
-/

namespace SearchFilter
open Json

namespace Value

def toJson : Value → Node
  | int n => .integer n
  | float x => if x.isFinite then .number x.jsonNumeral else .null
  | text s => .text s
  | bool b => .bool b
  | null => .null

/-- What is no 64-bit integer is read as a floating point number. -/
def ofJson? : Node → Option Value
  | .number n =>
    match n.jsonInteger? with
    | some i => some (int i)
    | none => n.jsonFloat?.map float
  | .string ps => (Piece.text? ps).map text
  | .bool b => some (bool b)
  | .null => some null
  | _ => none

end Value

namespace Operand

def toJson : Operand → Node
  | one v => v.toJson
  | set vs => .array (vs.map Value.toJson)

def ofJson? : Node → Option Operand
  | .array xs => (xs.mapM Value.ofJson?).map set
  | x => (Value.ofJson? x).map one

end Operand

def FilterKind.ofJson? (x : Node) : Option FilterKind :=
  match x.name? with
  | some "term" => some .term
  | some "range" => some .range
  | _ => none

namespace Filter

def toJson (f : Filter) : Node :=
  .record [("field", .text f.field), ("type", .text f.kind.name), ("value", f.operand.toJson)]

def ofJson? (x : Node) : Option Filter := do
  match ← x.fields? ["field", "type", "value"] with
  | [some field, some kind, some operand] =>
    return ⟨← field.text?, ← FilterKind.ofJson? kind, ← Operand.ofJson? operand⟩
  | _ => none

end Filter

end SearchFilter
