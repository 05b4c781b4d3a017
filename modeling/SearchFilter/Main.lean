import SearchFilter.CommandLine.Report

/-!
# The program

Reads the arguments, the variables and the files that are asked for, and prints the answer. A
failed request is reported and ends with exit code 1, arguments that make no sense end with 2.
-/

open SearchFilter

def readText (path : String) : IO (Except ReadFailure String) := do
  try
    let bytes ← IO.FS.readBinFile path
    match String.fromUTF8? bytes with
    | some text => return .ok text
    | none => return .error .notText
  catch
    | .noFileOrDirectory .. => return .error .notFound
    | .inappropriateType .. => return .error .isDirectory
    | e => return .error (.other (toString e))

def readVariable (name : String) : IO (Keyed String) := do
  match ← IO.getEnv name with
  | some value => return [(name, value)]
  | none => return []

def main (args : List String) : IO UInt32 := do
  let some request := CommandLine.Request.ofArguments? args
    | IO.eprint CommandLine.helpText
      return 2
  let files ← request.files.mapM fun path => return (path, ← readText path)
  let vars ← [Environment.tablePrefixVariable, Environment.storeVariable,
    Environment.showOutOfStockVariable].mapM readVariable
  let surroundings : CommandLine.Surroundings :=
    ⟨fun path => (files.lookup path).getD (.error .notFound), vars.flatten⟩
  match request.answer surroundings with
  | .ok text =>
    IO.print text
    return 0
  | .error failure =>
    IO.eprintln ("Error: " ++ failure.report)
    return 1
