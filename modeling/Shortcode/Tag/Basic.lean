import Shortcode.Arguments.Basic
import Shortcode.Span

/-!
# Tags

A `Bracket` is one bracket tag as it stands in the text: `[name args]`, `[name args /]` or
`[/name]`.  An `Occurrence` is what one or two of them stand for once open and close tags are
paired: a whole enclosed part or a tag alone.
-/

namespace Shortcode

/-- Where in the document a tag stands.  Tags pair only with close tags of the same context. -/
inductive Context where
  /-- Ordinary text, also between elements. -/
  | body
  /-- The body of a `script` or `style` element. -/
  | verbatim (region : Nat) (element : Text)
  /-- The value of an attribute of a start tag. -/
  | attributeValue (region : Nat) (element name : Text)
  deriving DecidableEq

def Context.isBody : Context → Bool
  | .body => true
  | _ => false

/-- Open tags have arguments; close tags have none. -/
inductive BracketKind where
  | opening (arguments : Arguments) (selfClosing : Bool)
  | closing
  deriving DecidableEq

/-- One bracket tag, before pairing. -/
structure Bracket where
  name : Text
  kind : BracketKind
  /-- The tag without doubled brackets. -/
  span : Span
  /-- Whether another `[` stands in front of it. -/
  lead : Bool
  /-- Whether another `]` follows it. -/
  trail : Bool
  context : Context
  deriving DecidableEq

namespace Bracket

/-- Doubled on both sides: an escape that never pairs. -/
def isEscape (b : Bracket) : Bool := b.lead && b.trail

def isClosing (b : Bracket) : Bool :=
  match b.kind with
  | .closing => true
  | .opening .. => false

/-- Whether `b` may close `opener`: a close tag of the same name and context, not an escape. -/
def closes (b opener : Bracket) : Bool :=
  b.isClosing && b.name == opener.name && b.context == opener.context && !b.isEscape

end Bracket

/-- How an occurrence is written. -/
inductive Form where
  /-- The form `[name /]`. -/
  | selfClosing
  /-- The form `[name]` without a close tag. -/
  | opening
  /-- The form `[name]content[/name]`. -/
  | enclosing
  /-- The form `[/name]` with nothing to close. -/
  | strayClose
  deriving DecidableEq

/-- A tag of the document with what it encloses. -/
structure Occurrence where
  name : Text
  arguments : Arguments
  /-- The enclosed part, for the form `enclosing` only. -/
  content : Option Span
  form : Form
  /-- The whole tag with its content, and with the doubled brackets of an escape. -/
  span : Span
  /-- Whether the tag only stands for its text with one bracket less at each end. -/
  escaped : Bool
  context : Context
  deriving DecidableEq

namespace Occurrence

/-- Whether the tag stands alone as `[name /]` or `[name]`. -/
def standsAlone (o : Occurrence) : Bool := o.form == .selfClosing || o.form == .opening

/-- The enclosed text. -/
def contentText (o : Occurrence) (source : Text) : Option Text := o.content.map (·.slice source)

/-- The text as which the tag is written. -/
def text (o : Occurrence) (source : Text) : Text := o.span.slice source

/-- The span of an escaped tag without the outermost bracket at each end. -/
def innerSpan (o : Occurrence) : Span := ⟨o.span.start + 1, o.span.stop - 1⟩

/-- The text that an escaped tag stands for. -/
def unescaped (o : Occurrence) (source : Text) : Text := o.innerSpan.slice source

end Occurrence

/-- A piece of a scanned document. -/
inductive Segment where
  /-- Source text that is copied. -/
  | literal (span : Span)
  | tag (occurrence : Occurrence)
  /-- The place where the relocated fragment `k` is put. -/
  | marker (k : Nat)
  deriving DecidableEq

/-- The occurrence that a segment holds. -/
def Segment.occurrence? : Segment → Option Occurrence
  | .tag o => some o
  | _ => none

end Shortcode
