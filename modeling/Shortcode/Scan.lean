import Shortcode.Markup.Token
import Shortcode.Tag.Pairing
import Shortcode.Tag.Reader

/-!
# Scanning a document

Tags and markup are read in one pass from left to right: a `[` that starts a tag is taken as one,
and a `<` that starts a markup token is stepped over as a whole.  Attribute values and the bodies
of `script` and `style` elements are read for tags only, each as a region of its own.

The segments of a `Scan` tile the document: literal runs and occurrences, in order.
-/

namespace Shortcode

open Byte

/-- What the pass from left to right finds. -/
inductive Piece where
  | bracket (b : Bracket)
  | token (t : Token)

namespace Piece

def bracket? : Piece → Option Bracket
  | .bracket b => some b
  | .token _ => none

def token? : Piece → Option Token
  | .bracket _ => none
  | .token t => some t

end Piece

namespace Scan

/-! ## Regions of text without markup -/

/-- The tags of a text that holds no markup. -/
def brackets (context : Context) (c : Cursor) : List Bracket :=
  match hc : c.rest with
  | [] => []
  | b :: _ =>
    have : (c.advance 1).rest.length < c.rest.length :=
      Cursor.length_advance_lt (by decide) (by simp [hc])
    if b = leftBracket then
      match h : Bracket.read? context c with
      | some (tag, after) =>
        have := Bracket.length_read_lt h
        tag :: brackets context after
      | none => brackets context (c.advance 1)
    else brackets context (c.advance 1)
termination_by c.rest.length

/-- The tags of the attribute values of a start tag that the cursor is at, and the number of the
last region.  Only a value with a `[` is a region. -/
def attributeBrackets (c : Cursor) (element : Text) (region : Nat) :
    List Attribute → List Bracket × Nat
  | [] => ([], region)
  | a :: rest =>
    match a.value with
    | none => attributeBrackets c element region rest
    | some span =>
      let text := c.slice span
      if text.contains leftBracket then
        let found :=
          brackets (.attributeValue (region + 1) element a.name) (.ofText text span.start)
        let (more, last) := attributeBrackets c element (region + 1) rest
        (found ++ more, last)
      else attributeBrackets c element region rest

/-- Whether a raw text body of `element` ends in front of this rest. -/
def endsRawText (element : Text) (rest : Text) : Bool :=
  Text.startsIgnoringCase ([less, slash] ++ element) rest

/-- The tags of a raw text body that starts at the cursor. -/
def rawTextBrackets (region : Nat) (element : Text) (c : Cursor) : List Bracket :=
  brackets (.verbatim region element) (.ofText (c.takeUntil (endsRawText element)) c.pos)

/-! ## The pass -/

/-- The tags and tokens from the cursor on; `region` is the number of the last region. -/
def pieces (region : Nat) (c : Cursor) : List Piece :=
  match hc : c.rest with
  | [] => []
  | b :: _ =>
    have : (c.advance 1).rest.length < c.rest.length :=
      Cursor.length_advance_lt (by decide) (by simp [hc])
    if b = leftBracket then
      match h : Bracket.read? .body c with
      | some (tag, after) =>
        have := Bracket.length_read_lt h
        .bracket tag :: pieces region after
      | none => pieces region (c.advance 1)
    else if b = less then
      match h : Token.read? c with
      | none => pieces region (c.advance 1)
      | some (.start tag, after) =>
        have := Token.length_read_lt h
        let (inValues, region) := attributeBrackets c tag.name region tag.attributes
        match tag.rawText? with
        | none => .token (.start tag) :: (inValues.map .bracket ++ pieces region after)
        | some element =>
          have : (after.skipUntil (endsRawText element)).rest.length < c.rest.length :=
            Nat.lt_of_le_of_lt (Cursor.length_skipUntil_le _ _) (Token.length_read_lt h)
          .token (.start tag) :: (inValues.map .bracket ++
            ((rawTextBrackets (region + 1) element after).map .bracket ++
              pieces (region + 1) (after.skipUntil (endsRawText element))))
      | some (token, after) =>
        have := Token.length_read_lt h
        .token token :: pieces region after
    else pieces region (c.advance 1)
termination_by c.rest.length

/-! ## Segments -/

/-- Fills the gaps from `pos` to `stop` around the occurrences with literal runs. -/
def segmentsFrom (stop pos : Nat) : List Occurrence → List Segment
  | [] => if pos < stop then [.literal ⟨pos, stop⟩] else []
  | o :: rest =>
    if pos < o.span.start then
      .literal ⟨pos, o.span.start⟩ :: .tag o :: segmentsFrom stop o.span.stop rest
    else .tag o :: segmentsFrom stop o.span.stop rest

end Scan

/-- A scanned document. -/
structure Scan where
  /-- Literal runs and occurrences that cover the document in order. -/
  segments : List Segment
  /-- The markup tokens, in order. -/
  markup : List Token

namespace Scan

/-- Scans `source`; only open tags whose name satisfies `pairs` take content. -/
def ofText (source : Text) (pairs : Text → Bool) : Scan :=
  let found := pieces 0 (.ofText source 0)
  ⟨segmentsFrom source.length 0 (Occurrence.ofBrackets pairs (found.filterMap Piece.bracket?)),
    found.filterMap Piece.token?⟩

def occurrences (s : Scan) : List Occurrence := s.segments.filterMap Segment.occurrence?

end Scan

end Shortcode
