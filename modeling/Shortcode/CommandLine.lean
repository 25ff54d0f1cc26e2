import Shortcode.Settings

/-!
# The command line

    shortcode-cli [--config PATH] [FILE ...]

renders files, or standard input where none is named, with the handlers of the settings, and prints
the renderings one after the other.  A dash names standard input.  The first file that cannot be
read ends the run; what was rendered before it is still printed.
-/

namespace Shortcode.CommandLine

/-! ## Arguments -/

structure Options where
  /-- The path of the settings, if it is given. -/
  settings : Option Text
  inputs : List Text
  deriving DecidableEq

/-- Why the arguments say nothing to do. -/
inductive UsageError where
  | missingPath
  | unknownOption (option : Text)
  | helpWanted
  deriving DecidableEq

def usage (program : Text) : Text :=
  Text.ofString "Usage: " ++ program ++ Text.ofString " [--config PATH] [FILE ...]"

def UsageError.message (program : Text) : UsageError → Text
  | .missingPath => Text.ofString "--config needs a path\n" ++ usage program
  | .unknownOption option => Text.ofString "Unknown option " ++ option ++ [0x0A] ++ usage program
  | .helpWanted => usage program

/-- The name of the program, which comes before its arguments. -/
def programName (args : List Text) : Text := args.headD (Text.ofString "shortcode-cli")

/-- The name that stands for standard input. -/
def standardInput : Text := [Byte.hyphen]

namespace Options

/-- Reads arguments from left to right; the last path of settings counts. -/
def read (o : Options) : List Text → Except UsageError Options
  | [] => .ok o
  | arg :: rest =>
    if arg = Text.ofString "--config" ∨ arg = Text.ofString "-c" then
      match rest with
      | [] => .error .missingPath
      | path :: rest => read { o with settings := some path } rest
    else if arg = Text.ofString "--help" ∨ arg = Text.ofString "-h" then .error .helpWanted
    else if arg.head? = some Byte.hyphen ∧ arg ≠ standardInput then .error (.unknownOption arg)
    else read { o with inputs := o.inputs ++ [arg] } rest

/-- The options that the arguments after the name of the program give. -/
def ofArgs (args : List Text) : Except UsageError Options := read ⟨none, []⟩ args.tail

end Options

/-! ## Runs -/

/-- What a run can see. -/
structure Machine where
  readFile : FileReader
  /-- All of standard input. -/
  input : Text
  environment : Environment

/-- What a run leaves behind. -/
structure Report where
  exitCode : Nat
  output : Text
  errors : Text
  deriving DecidableEq

/-- An error with the texts of its causes, outermost first. -/
structure Problem where
  message : Text
  causes : List Text
  deriving DecidableEq

namespace Problem

/-- The lines of the causes; several are numbered from zero. -/
def causeLines (causes : List Text) : Text :=
  match causes with
  | [] => []
  | [cause] => Text.ofString "\n\nCaused by:\n    " ++ cause
  | _ => Text.ofString "\n\nCaused by:" ++
    (causes.mapIdx fun k cause =>
      Text.ofString "\n" ++ List.replicate (5 - (Text.ofNat k).length) 0x20 ++ Text.ofNat k ++
        Text.ofString ": " ++ cause).flatten

/-- What is printed about the problem. -/
def text (p : Problem) : Text :=
  Text.ofString "Error: " ++ p.message ++ causeLines p.causes ++ [0x0A]

def ofSettings (e : SettingsError) : Problem := ⟨e.message, (e.cause?.map (·.message)).toList⟩

end Problem

/-- The settings of a run: those at the path that is given, or those at the default path if there
are any. -/
def settingsOf (m : Machine) (o : Options) : Except Problem Settings :=
  let path := o.settings.getD (Settings.defaultPath m.environment)
  match Settings.load m.readFile m.environment path with
  | .error e => .error (.ofSettings e)
  | .ok (some s) => .ok s
  | .ok none =>
    match o.settings with
    | none => .ok .default
    | some path =>
      .error ⟨Text.ofString "Config file '" ++ path ++ Text.ofString "' does not exist", []⟩

/-- What a run reads, by default standard input. -/
def inputsOf (o : Options) : List Text := if o.inputs.isEmpty then [standardInput] else o.inputs

/-- The text of an input, and what is left of standard input. -/
def readInput (m : Machine) (input path : Text) : Except Problem Text × Text :=
  if path = standardInput then
    match checkText input with
    | .ok t => (.ok t, [])
    | .error e => (.error ⟨e.message, []⟩, [])
  else
    match m.readFile.text path with
    | .ok t => (.ok t, input)
    | .error e =>
      (.error ⟨Text.ofString "Failed to read '" ++ path ++ Text.ofString "'", [e.message]⟩, input)

/-- Renders inputs one after the other, up to the first problem. -/
def renderEach (m : Machine) (r : Registry) :
    List Text → Text → World Unit → Text × Option Problem
  | [], _, _ => ([], none)
  | path :: rest, input, w =>
    match readInput m input path with
    | (.error p, _) => ([], some p)
    | (.ok t, input) =>
      let failed := Text.ofString "Failed to render '" ++ path ++ Text.ofString "'"
      match (Renderer.standard r).render t w with
      | .ok out w =>
        let (more, problem) := renderEach m r rest input w
        (out ++ more, problem)
      | .error e _ => ([], some ⟨failed, e.toFailure.chain⟩)
      | .tooDeep => ([], some ⟨failed, []⟩)

/-- Renders the inputs with the handlers of the settings. -/
def render (m : Machine) (o : Options) (s : Settings) : Text × Option Problem :=
  let (r, w) := ({ World.initial () with policy := s.policy }).sharedRegistry s.registry
  match s.registerAll m.readFile r w with
  | (.error e, _) => ([], some (.ofSettings e))
  | (.ok (), w) => renderEach m r (inputsOf o) m.input w

/-- A run of the program; the first argument is its name. -/
def run (m : Machine) (args : List Text) : Report :=
  match Options.ofArgs args with
  | .error e => ⟨1, [], e.message (programName args) ++ [0x0A]⟩
  | .ok o =>
    match settingsOf m o with
    | .error p => ⟨1, [], p.text⟩
    | .ok s =>
      match render m o s with
      | (out, none) => ⟨0, out, []⟩
      | (out, some p) => ⟨1, out, p.text⟩

/-! ## What a run reads -/

/-- The variables that the paths in a settings file may ask for. -/
def variablesOf (bytes : Text) : List Text :=
  match Settings.ofText? bytes with
  | none => []
  | some s => s.handlers.entries.flatMap fun e =>
    (e.2.file.map PathExpansion.mentioned).getD []

/-- The files that a run reads after its settings. -/
def filesOf (o : Options) (s : Settings) : List Text :=
  s.files ++ (inputsOf o).filter (· != standardInput)

end Shortcode.CommandLine
