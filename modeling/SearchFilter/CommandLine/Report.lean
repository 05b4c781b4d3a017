import SearchFilter.CommandLine.Run

/-!
# Reports

What a program that fails prints is its failure with all the parts of it, every text of them in
quotes. The report takes one line whatever the texts are.
-/

namespace SearchFilter

/-- How a character stands in quotes. Of the characters without a glyph only controls and blanks are
told from the others. -/
def shown : Char → List Char
  | '"' => ['\\', '"']
  | '\\' => ['\\', '\\']
  | '\x00' => ['\\', '0']
  | '\t' => ['\\', 't']
  | '\n' => ['\\', 'n']
  | '\r' => ['\\', 'r']
  | c =>
    if c ≠ ' ' ∧ (c.toNat < 0x20 ∨ (0x7F ≤ c.toNat ∧ c.toNat < 0xA0) ∨ Text.isBlank c) then
      '\\' :: 'u' :: '\x7b' :: (Nat.toDigits 16 c.toNat ++ ['\x7d'])
    else [c]

def inQuotes (s : String) : String :=
  "\"" ++ String.ofList (s.toList.flatMap shown) ++ "\""

/-- A failure of the system has a number, a kind and a reason. -/
def systemFailure (code : Nat) (kind reason : String) : String :=
  "Os \x7b code: " ++ code.repr ++ ", kind: " ++ kind ++ ", message: " ++ inQuotes reason ++ " \x7d"

def ReadFailure.report : ReadFailure → String
  | notFound => systemFailure 2 "NotFound" "No such file or directory"
  | isDirectory => systemFailure 21 "IsADirectory" "Is a directory"
  | notText => "Error \x7b kind: InvalidData, message: " ++ inQuotes notText.message ++ " \x7d"
  | other reason => "Custom \x7b kind: Other, error: " ++ inQuotes reason ++ " \x7d"

def CompileError.report : CompileError → String
  | unknownAttribute field entity =>
    "AttributeNotFound \x7b entity: " ++ inQuotes entity ++ ", field: " ++ inQuotes field ++ " \x7d"
  | unknownLinks entity => "LinkFieldResolution \x7b entity: " ++ inQuotes entity ++ " \x7d"

namespace CommandLine

def Refusal.report (r : Refusal) : String :=
  "Error(" ++ inQuotes r.reason ++ ", line: " ++ r.line.repr ++ ", column: " ++ r.column.repr ++ ")"

def Failure.report (failure : Failure) (refusal : Refusal := {}) : String :=
  match failure with
  | catalogFile failure => "CatalogFileRead(" ++ failure.report ++ ")"
  | catalogJson => "CatalogDeserialize(" ++ refusal.report ++ ")"
  | environment e => "Config(" ++ inQuotes e.reason ++ ")"
  | argument e => "InvalidArgument(" ++ inQuotes e.message ++ ")"
  | compile e => "Compile(" ++ e.report ++ ")"

end CommandLine

end SearchFilter
