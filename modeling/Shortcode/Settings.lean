import Shortcode.Files
import Shortcode.PathExpansion
import Shortcode.Template
import Shortcode.Toml.Reader
import Shortcode.Toml.Writer

/-!
# Settings

A settings file names the policy, the registry and, by tag, templates for handlers:

    error_behavior = "warn"
    registry = "site"

    [handlers.note]
    template = "<aside>{content}</aside>"
    placement = "after"

A handler has a template or the path of a file that holds one.  Everything may be left out and
unknown keys are passed over.  Paths are expanded when the file is read.  All texts are strings but
the paths, which may be any bytes; settings with a path that is no string cannot be written.
-/

namespace Shortcode

/-! ## Settings -/

/-- A handler that fills a template. -/
structure TemplateSpec where
  template : Option ValidText
  /-- The path of a file with the template. -/
  file : Option Text
  placement : Option Placement
  deriving DecidableEq

structure Settings where
  policy : Policy
  /-- The name of the registry that the handlers belong to. -/
  registry : ValidText
  handlers : TagMap TemplateSpec
  tags_valid : ∀ tag ∈ handlers.names, tag.IsValid

namespace Settings

/-- The settings where there is no file. -/
def default : Settings := ⟨.leave, .ofString "default", .empty, nofun⟩

/-- The paths of the template files. -/
def files (s : Settings) : List Text := s.handlers.entries.filterMap fun e => e.2.file

end Settings

/-! ## Errors -/

inductive SettingsError where
  | unreadable (path : Text) (cause : FileError)
  /-- The file is not in the form of settings. -/
  | malformed (path : Text)
  | templateUnreadable (tag path : Text) (cause : FileError)
  /-- A handler has both a template and a file, or neither. -/
  | templateSource (tag : Text)
  deriving DecidableEq

namespace SettingsError

def message : SettingsError → Text
  | .unreadable path cause =>
    Text.ofString "Failed to read config file at " ++ path ++ Text.ofString ": " ++ cause.message
  | .malformed path => Text.ofString "Failed to parse config file at " ++ path
  | .templateUnreadable tag path cause =>
    Text.ofString "Failed to read template for [" ++ tag ++ Text.ofString "] at " ++ path ++
      Text.ofString ": " ++ cause.message
  | .templateSource tag =>
    Text.ofString "Handler [" ++ tag ++
      Text.ofString "] needs exactly one of \x60template\x60 or \x60file\x60"

/-- The error that caused this one. -/
def cause? : SettingsError → Option FileError
  | .unreadable _ cause => some cause
  | .templateUnreadable _ _ cause => some cause
  | _ => none

end SettingsError

/-- Why settings could not be written. -/
inductive WriteError where
  /-- The path of a template file is no string. -/
  | pathNotText
  deriving DecidableEq

def WriteError.message : WriteError → Text
  | .pathNotText => Text.ofString "path contains invalid UTF-8 characters"

/-! ## Reading -/

namespace Settings

open Toml (Value)

def errorBehaviorKey : Text := Text.ofString "error_behavior"
def registryKey : Text := Text.ofString "registry"
def handlersKey : Text := Text.ofString "handlers"
def templateKey : Text := Text.ofString "template"
def fileKey : Text := Text.ofString "file"
def placementKey : Text := Text.ofString "placement"

def string? : Value → Option ValidText
  | .string t => ValidText.ofText? t
  | _ => none

/-- A path, which is written as a string. -/
def path? (v : Value) : Option Text := (string? v).map (·.1)

/-- A name out of a fixed set: a string, or a table with that key alone and nothing in it. -/
def choice? : Value → Option Text
  | .string t => some t
  | .table _ [(name, .table _ [])] => some name
  | .table _ [(name, .array _ [])] => some name
  | _ => none

def policy? (v : Value) : Option Policy := (choice? v).bind Policy.ofName?

def placement? (v : Value) : Option Placement := (choice? v).bind Placement.ofName?

/-- Reads a value that may be missing. -/
def optional? {α : Type} (read : Value → Option α) : Option Value → Option (Option α)
  | none => some none
  | some v => (read v).map some

/-- Whether the entries under unknown keys can be passed over. -/
def othersReadable (known : List Text) (entries : List (Text × Value)) : Bool :=
  entries.all fun e => known.contains e.1 || e.2.isReadable

/-- A handler: a table, or a list of its values in order.  A date or time has parts of its own and
is a handler with nothing in it. -/
def spec? : Value → Option TemplateSpec
  | .table _ entries =>
    if othersReadable [templateKey, fileKey, placementKey] entries then do
      let template ← optional? string? (entries.lookup templateKey)
      let file ← optional? path? (entries.lookup fileKey)
      let placement ← optional? placement? (entries.lookup placementKey)
      return ⟨template, file, placement⟩
    else none
  | .array _ items => do
    let template ← optional? string? items[0]?
    let file ← optional? path? items[1]?
    let placement ← optional? placement? items[2]?
    return ⟨template, file, placement⟩
  | .dateTime => some ⟨none, none, none⟩
  | _ => none

/-- The handlers by tag. -/
def handlers? : Value → Option { m : TagMap TemplateSpec // ∀ tag ∈ m.names, tag.IsValid }
  | .table _ entries => do
    let specs ← entries.mapM fun e => (spec? e.2).map fun s => (e.1, s)
    if h : ∀ tag ∈ (TagMap.ofList specs).names, tag.IsValid then return ⟨.ofList specs, h⟩ else none
  | _ => none

/-- The settings that a document holds. -/
def ofValue? : Value → Option Settings
  | .table _ entries =>
    if othersReadable [errorBehaviorKey, registryKey, handlersKey] entries then do
      let policy ← optional? policy? (entries.lookup errorBehaviorKey)
      let registry ← optional? string? (entries.lookup registryKey)
      let handlers ← optional? handlers? (entries.lookup handlersKey)
      let ⟨handlers, tags_valid⟩ := handlers.getD ⟨default.handlers, default.tags_valid⟩
      return ⟨policy.getD default.policy, registry.getD default.registry, handlers, tags_valid⟩
    else none
  | _ => none

/-- The settings that a text writes, with paths as they are written. -/
def ofText? (t : Text) : Option Settings := (Toml.document? t).bind ofValue?

/-- The settings with the paths of all template files expanded. -/
def expandPaths (env : Environment) (s : Settings) : Settings :=
  { s with
    handlers := s.handlers.mapValues fun _ spec =>
      { spec with file := spec.file.map (PathExpansion.expand env) }
    tags_valid := s.handlers.names_mapValues _ ▸ s.tags_valid }

/-- The settings that the bytes of a file at `path` write. -/
def ofBytes (env : Environment) (path bytes : Text) : Except SettingsError Settings :=
  match checkText bytes with
  | .error e => .error (.unreadable path e)
  | .ok t =>
    match ofText? t with
    | none => .error (.malformed path)
    | some s => .ok (s.expandPaths env)

/-- The settings in the file at `path`, if there is one. -/
def load (read : FileReader) (env : Environment) (path : Text) :
    Except SettingsError (Option Settings) :=
  match read path with
  | .error e => if e.meansMissing then .ok none else .error (.unreadable path e)
  | .ok bytes => (ofBytes env path bytes).map some

/-- Where settings are looked for by default. -/
def defaultPath (env : Environment) : Text :=
  PathExpansion.tilde env (Text.ofString "~/.config/shortcode-engine") ++
    Text.ofString "/config.toml"

/-! ## Writing -/

/-- The lines of a handler. -/
def specPairs (spec : TemplateSpec) : List (Text × Text) :=
  (spec.template.map fun t => (templateKey, t.1)).toList ++
    (spec.file.map fun t => (fileKey, t)).toList ++
    (spec.placement.map fun p => (placementKey, p.name)).toList

/-- The sections of a settings file. -/
def sections (s : Settings) : List Toml.Section :=
  ⟨[], [(errorBehaviorKey, s.policy.name), (registryKey, s.registry)]⟩ ::
    if s.handlers.isEmpty then [⟨[handlersKey], []⟩]
    else s.handlers.entries.map fun e => ⟨[handlersKey, e.1], specPairs e.2⟩

/-- The text of a settings file.  Nothing is written if a path is no string. -/
def write (s : Settings) : Except WriteError Text :=
  if ∀ path ∈ s.files, path.IsValid then .ok (Toml.Section.writeAll s.sections)
  else .error .pathNotText

/-! ## Comparing -/

/-- Whether two handlers are the same, up to how the path of the file is written. -/
def sameSpec (a b : TemplateSpec) : Bool :=
  a.template == b.template && a.placement == b.placement &&
    match a.file, b.file with
    | none, none => true
    | some p, some q => Path.sameAs p q
    | _, _ => false

/-- Whether two settings are the same, up to how the paths of files are written. -/
def sameAs (a b : Settings) : Bool :=
  a.policy == b.policy && a.registry == b.registry && a.handlers.names == b.handlers.names &&
    (a.handlers.entries.zip b.handlers.entries).all fun p => sameSpec p.1.2 p.2.2

/-! ## Registering -/

/-- The template of a handler. -/
def body (read : FileReader) (tag : Text) (spec : TemplateSpec) : Except SettingsError Text :=
  match spec.template, spec.file with
  | some t, none => .ok t
  | none, some path =>
    match read.text path with
    | .ok t => .ok t
    | .error e => .error (.templateUnreadable tag path e)
  | _, _ => .error (.templateSource tag)

/-- Registers handlers from left to right, up to the first without a template. -/
def registerEach {σ : Type} (read : FileReader) (r : Registry) :
    List (Text × TemplateSpec) → World σ → Except SettingsError Unit × World σ
  | [], w => (.ok (), w)
  | (tag, spec) :: rest, w =>
    match body read tag spec with
    | .error e => (.error e, w)
    | .ok template =>
      registerEach read r rest (w.register r tag (Template.handler template spec.placement))

/-- Registers the handlers of the settings in the order of their tags. -/
def registerAll {σ : Type} (read : FileReader) (s : Settings) (r : Registry) (w : World σ) :
    Except SettingsError Unit × World σ :=
  registerEach read r s.handlers.entries w

end Settings

end Shortcode
