import SearchFilter.Json.Number
import SearchFilter.Json.Node

/-!
# Shapes of JSON values

What a JSON value has to look like to be read as a text, a number, a record, a list, a dictionary
or one of several names. A record is an object with the names of its fields, in any order and
with other names in between, or an array of its fields in order.
-/

namespace SearchFilter.Json.Node

def text? : Node → Option String
  | string ps => Piece.text? ps
  | _ => none

def bool? : Node → Option Bool
  | bool b => some b
  | _ => none

def integer? : Node → Option Int64
  | number n => n.jsonInteger?
  | _ => none

def list? {α : Type} (item? : Node → Option α) : Node → Option (List α)
  | array xs => xs.mapM item?
  | _ => none

def entries? {α : Type} (item? : Node → Option α) : Node → Option (List (String × α))
  | object ms => ms.mapM fun (key, x) => do return (← Piece.text? key, ← item? x)
  | _ => none

/-- A name stands for itself, or is the only key of an object and has no value. -/
def name? : Node → Option String
  | string ps => Piece.text? ps
  | object [(key, null)] => Piece.text? key
  | _ => none

/-- What an object says about one field: nothing, or one value, but not two. -/
def field? (ms : List (String × Node)) (name : String) : Option (Option Node) :=
  match ms.filter (·.1 = name) with
  | [] => some none
  | [(_, x)] => some (some x)
  | _ => none

/-- The fields with these names, each given or left out. -/
def fields? (names : List String) : Node → Option (List (Option Node))
  | object ms => do
    let ms ← entries? some (object ms)
    names.mapM (field? ms)
  | array xs =>
    if xs.length ≤ names.length then
      some (xs.map some ++ List.replicate (names.length - xs.length) none)
    else none
  | _ => none

def orElse? {α : Type} (default : α) (read? : Node → Option α) : Option Node → Option α
  | none => some default
  | some x => read? x

def optional? {α : Type} (read? : Node → Option α) : Node → Option (Option α)
  | null => some none
  | x => (read? x).map some

end SearchFilter.Json.Node
