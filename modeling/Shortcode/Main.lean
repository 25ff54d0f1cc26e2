import Shortcode.CommandLine

/-!
# The program

Reads what a run needs, carries it out and prints its report.
-/

namespace Shortcode.CommandLine

/-- The bytes of a file.  A directory opens and cannot be read, so that error names no file; a path
that leads through a file does not open. -/
def readBytes (path : Text) : IO (Except FileError Text) := do
  match Text.toString? path with
  | none => return .error .notFound
  | some name =>
    if path.contains 0 then return .error .nullInPath
    try
      return .ok (← IO.FS.readBinFile name).data.toList
    catch e =>
      return .error <| match e with
        | .noFileOrDirectory .. => .notFound
        | .inappropriateType (some _) .. => .notDirectory
        | .inappropriateType none .. => .isDirectory
        | .invalidArgument .. => .nameTooLong
        | e => .other (Text.ofString (toString e))

/-- The files at these paths, each with what reading it gave. -/
def readAll (paths : List Text) : IO (List (Text × Except FileError Text)) :=
  paths.mapM fun path => return (path, ← readBytes path)

/-- The variables with these names that are set. -/
def readVariables (names : List Text) : IO (List (Text × Text)) := do
  let found ← names.mapM fun name => do
    match Text.toString? name with
    | none => return none
    | some n => return (← IO.getEnv n).map fun value => (name, Text.ofString value)
  return found.filterMap id

def lookupFile (known : List (Text × Except FileError Text)) : FileReader := fun path =>
  (known.lookup path).getD (.error .notFound)

/-- All of standard input. -/
def readInputToEnd : IO Text := return (← (← IO.getStdin).readBinToEnd).data.toList

/-- The machine with everything that these options ask for. -/
def machineFor (o : Options) : IO Machine := do
  let home ← readVariables [Text.ofString "HOME"]
  let path := o.settings.getD (Settings.defaultPath ⟨home⟩)
  let known ← readAll [path]
  let bytes := match lookupFile known path with
    | .ok bytes => bytes
    | .error _ => []
  let env : Environment := ⟨(← readVariables (variablesOf bytes)) ++ home⟩
  let partly : Machine := ⟨lookupFile known, [], env⟩
  match settingsOf partly o with
  | .error _ => return partly
  | .ok s =>
    let files ← readAll (filesOf o s)
    let input ← if (inputsOf o).contains standardInput then readInputToEnd else pure []
    return ⟨lookupFile (known ++ files), input, env⟩

end Shortcode.CommandLine

open Shortcode CommandLine

def main (args : List String) : IO UInt32 := do
  let args := (Text.ofString "shortcode-cli") :: args.map Text.ofString
  let machine ← match Options.ofArgs args with
    | .ok o => machineFor o
    | .error _ => pure ⟨lookupFile [], [], ⟨[]⟩⟩
  let report := run machine args
  (← IO.getStdout).write ⟨report.output.toArray⟩
  (← IO.getStderr).write ⟨report.errors.toArray⟩
  return report.exitCode.toUInt32
