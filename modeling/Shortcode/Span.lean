import Shortcode.Text.Basic

/-!
# Spans

A `Span` is a byte range `[start, stop)` of a document.  Segments and tags keep spans in place of
copied text; `slice` reads the text back.
-/

namespace Shortcode

/-- The byte range from `start` up to, not including, `stop`. -/
structure Span where
  start : Nat
  stop : Nat
  deriving DecidableEq, Repr

namespace Span

/-- The number of bytes; an inverted span has none. -/
def length (s : Span) : Nat := s.stop - s.start

def isEmpty (s : Span) : Bool := s.length == 0

/-- Whether `pos` lies inside the span and at neither end. -/
def strictlyContains (s : Span) (pos : Nat) : Bool := s.start < pos && pos < s.stop

/-- Whether `pos` is the offset of a byte of the span. -/
def contains (s : Span) (pos : Nat) : Bool := s.start ≤ pos && pos < s.stop

/-- The bytes of `text` in the span. -/
def slice (s : Span) (text : Text) : Text := (text.drop s.start).take s.length

/-- Whether the span is a run of whole characters of `text`. -/
def fits (s : Span) (text : Text) : Bool :=
  s.start ≤ s.stop && s.stop ≤ text.length && text.isBoundary s.start && text.isBoundary s.stop

/-- The slice, if the span is a run of whole characters of `text`. -/
def slice? (s : Span) (text : Text) : Option Text :=
  if s.fits text then some (s.slice text) else none

end Span

end Shortcode
