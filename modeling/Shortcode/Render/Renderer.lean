import Shortcode.Render.Relocation
import Shortcode.Scan

/-!
# Rendering a text

A text is scanned, every tag is resolved in document order, and the document is put together again
with the texts of its tags, some of them relocated.  The first handler that fails ends the
rendering.

A text without a `[`, or with white space only, is its own rendering, and so is one of whose tags
none is actionable; the elements of such a text are never looked for.

A handler may render text again.  `renderWithin depth` allows for `depth` texts inside each other.
Content is shorter than the text it stands in, so the length of the text is depth enough for
handlers that render their content.
-/

namespace Shortcode

/-! ## Resolved tags -/

/-- The text of a tag and, if it is relocated, its anchor. -/
structure Placed where
  text : Text
  anchor : Option Nat
  deriving DecidableEq

namespace Placed

/-- What is written where the tag stands. -/
def inlineText (p : Placed) : Text := if p.anchor.isSome then [] else p.text

/-- What is written elsewhere. -/
def fragment? (p : Placed) : Option Fragment := p.anchor.map fun a => ⟨a, p.text⟩

end Placed

namespace Rules

variable {σ : Type}

/-- Settles where a resolved text goes and logs a refused relocation. -/
def place (o : Occurrence) (resolved : Resolved) (document : Document) (spans : List Span)
    (w : World σ) : Placed × World σ :=
  match o.destination resolved.placement document spans with
  | .inline => (⟨resolved.text, none⟩, w)
  | .anchor a => (⟨resolved.text, some a⟩, w)
  | .refused why =>
    (⟨resolved.text, none⟩, w.record (why.record o).level (why.record o).message)

/-- Resolves occurrences from left to right, up to the first handler that fails. -/
def resolveAll (render : Rendering σ) (rules : Rules) (source : Text) (document : Document)
    (spans : List Span) : List Occurrence → World σ → Result σ RenderError (List Placed)
  | [], w => .ok [] w
  | o :: rest, w =>
    match rules.resolve render source document o w with
    | .error e w => .error e w
    | .tooDeep => .tooDeep
    | .ok resolved w =>
      let (placed, w) := place o resolved document spans w
      match resolveAll render rules source document spans rest w with
      | .error e w => .error e w
      | .tooDeep => .tooDeep
      | .ok more w => .ok (placed :: more) w

end Rules

/-! ## Putting the document together -/

namespace Segment

/-- Writes segments, with a text for each tag in turn and a fragment for each marker. -/
def write (source : Text) (fragments : List Fragment) : List Segment → List Text → Text
  | [], _ => []
  | .literal span :: rest, texts => span.slice source ++ write source fragments rest texts
  | .tag _ :: rest, [] => write source fragments rest []
  | .tag _ :: rest, text :: texts => text ++ write source fragments rest texts
  | .marker k :: rest, texts =>
    ((fragments[k]?).map (·.text)).getD [] ++ write source fragments rest texts

/-- The document with the texts of its tags. -/
def assemble (source : Text) (segments : List Segment) (placed : List Placed) : Text :=
  let fragments := placed.filterMap Placed.fragment?
  let marked :=
    if fragments.isEmpty then segments else insertMarkers segments (Fragment.byAnchor fragments)
  write source fragments marked (placed.map Placed.inlineText)

end Segment

namespace Rules

variable {σ : Type}

/-- Renders a document from its segments. -/
def renderSegments (render : Rendering σ) (rules : Rules) (source : Text) (segments : List Segment)
    (document : Document) (w : World σ) : Result σ RenderError Text :=
  let occurrences := segments.filterMap Segment.occurrence?
  match rules.resolveAll render source document (occurrences.map (·.span)) occurrences w with
  | .error e w => .error e w
  | .tooDeep => .tooDeep
  | .ok placed w => .ok (Segment.assemble source segments placed) w

end Rules

/-! ## Renderers -/

/-- How the elements of a document are found.  An analyzer may use the state of the host. -/
abbrev Analyzer (σ : Type) := Text → List Token → σ → Document × σ

/-- Finds the elements that the markup makes. -/
def Analyzer.standard {σ : Type} : Analyzer σ := fun source markup state =>
  (Document.ofMarkup source markup, state)

/-- One way to render texts with the handlers of a registry. -/
structure Renderer (σ : Type) where
  registry : Registry
  analyzer : Analyzer σ
  /-- Used in place of the policy of the world. -/
  policy : Option Policy

namespace Renderer

variable {σ : Type}

/-- Takes the elements that the markup makes and the policy of the world. -/
def standard (registry : Registry) : Renderer σ := ⟨registry, .standard, none⟩

def rules (renderer : Renderer σ) (w : World σ) : Rules :=
  ⟨renderer.registry, renderer.policy.getD w.policy⟩

/-- The scan of a text; the tags that have a handler when the rendering starts take content. -/
def scan (renderer : Renderer σ) (text : Text) (w : World σ) : Scan :=
  .ofText text (w.isRegistered renderer.registry)

/-- Whether a text cannot hold a tag. -/
def isPlain (text : Text) : Bool := text.isBlank || !text.contains Byte.leftBracket

/-- Logs that a text is its own rendering. -/
def recordUnchanged (renderer : Renderer σ) (text : Text) (w : World σ) : World σ :=
  w.record .debug (Text.ofString "registry " ++ renderer.registry.name ++
    Text.ofString ": no actionable shortcodes in " ++ Text.ofNat text.length ++
    Text.ofString " bytes")

/-- Renders a text; `render` renders the texts that handlers ask for. -/
def step (render : Rendering σ) (renderer : Renderer σ) (text : Text) (w : World σ) :
    Result σ RenderError Text :=
  if isPlain text then .ok text w
  else
    let scan := renderer.scan text w
    let rules := renderer.rules w
    if scan.occurrences.any (rules.isActionable · w) then
      let (document, state) := renderer.analyzer text scan.markup w.state
      rules.renderSegments render text scan.segments document { w with state := state }
    else .ok text (renderer.recordUnchanged text w)

/-- Renders a text, with at most `depth` texts inside each other. -/
def renderWithin : Nat → Renderer σ → Text → World σ → Result σ RenderError Text
  | 0, _, _, _ => .tooDeep
  | depth + 1, renderer, text, w =>
    renderer.step (fun r => renderWithin depth (.standard r)) text w

/-- Renders a text for handlers that render no more than their content. -/
def render (renderer : Renderer σ) (text : Text) (w : World σ) : Result σ RenderError Text :=
  renderer.renderWithin (text.length + 1) text w

end Renderer

/-- Carries out a call of a handler that renders no more than its content. -/
def Handler.call {σ : Type} (handler : Handler σ) (invocation : Invocation) (w : World σ) :
    Result σ Failure Replacement :=
  (handler invocation).run
    (fun r => Renderer.renderWithin ((invocation.content.getD []).length + 1) (.standard r)) w

end Shortcode
