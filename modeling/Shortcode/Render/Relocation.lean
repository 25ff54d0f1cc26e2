import Shortcode.Render.Resolution

/-!
# Relocated texts

A tag in ordinary text may ask for its text to go in front of the nearest block around it or after
that block.  The text is then a `Fragment` anchored at the block's start tag or at its end, and the
tag itself stands for nothing.  Relocation is refused where there is no such block or where the
anchor lies inside a tag; the text then stays where the tag stands.

Fragments become markers in the list of segments, sorted by anchor; those with one anchor keep the
order of their tags.
-/

namespace Shortcode

/-! ## Anchors -/

/-- Why a text is not relocated. -/
inductive Refusal where
  | splitUnsupported
  | noBlock (placement : Placement)
  /-- The anchor, a boundary of the named element, lies inside a tag. -/
  | insideTag (element : Text) (anchor : Nat)
  deriving DecidableEq

/-- Where the text of a tag goes. -/
inductive Destination where
  | inline
  | anchor (position : Nat)
  | refused (why : Refusal)
  deriving DecidableEq

namespace Refusal

/-- The message about a refused relocation. -/
def record (o : Occurrence) : Refusal → LogRecord
  | .splitUnsupported =>
    ⟨.debug, Text.ofString "[" ++ o.name ++
      Text.ofString "]: split placement is not supported, placing inline"⟩
  | .noBlock placement =>
    ⟨.warn, Text.ofString "[" ++ o.name ++ Text.ofString "] at byte " ++
      Text.ofNat o.span.start ++ Text.ofString ": no enclosing block to place " ++
      placement.title ++ Text.ofString ", placing inline"⟩
  | .insideTag element anchor =>
    ⟨.warn, Text.ofString "[" ++ o.name ++ Text.ofString "]: <" ++ element ++
      Text.ofString "> boundary at byte " ++ Text.ofNat anchor ++
      Text.ofString " lies inside another shortcode, placing inline"⟩

end Refusal

namespace Occurrence

/-- Where the text of an occurrence goes; `spans` are those of all occurrences. -/
def destination (o : Occurrence) (placement : Placement) (document : Document)
    (spans : List Span) : Destination :=
  match placement with
  | .inline => .inline
  | .split => .refused .splitUnsupported
  | .before => block fun e => e.startTag.start
  | .after => block fun e => e.stop
where
  /-- The anchor that a boundary of the nearest block gives. -/
  block (boundary : Element → Nat) : Destination :=
    if !o.context.isBody then .inline
    else
      match (document.enclosingBlock o.span.start).bind document.element? with
      | none => .refused (.noBlock placement)
      | some e =>
        if spans.any (·.strictlyContains (boundary e)) then
          .refused (.insideTag e.name (boundary e))
        else .anchor (boundary e)

end Occurrence

/-! ## Markers -/

/-- A text that goes to `anchor`, an offset into the source. -/
structure Fragment where
  anchor : Nat
  text : Text
  deriving DecidableEq

/-- A fragment by its number, with its anchor. -/
structure Pending where
  k : Nat
  anchor : Nat
  deriving DecidableEq

namespace Segment

/-- The literal run from `start` to `stop`, if it holds anything. -/
def literalRun (start stop : Nat) : List Segment :=
  if start < stop then [.literal ⟨start, stop⟩] else []

/-- Splits a literal run at the anchors in it, a marker at each; also the fragments after it. -/
def splitLiteral (start stop : Nat) : List Pending → List Segment × List Pending
  | [] => (literalRun start stop, [])
  | p :: rest =>
    if p.anchor < stop then
      let cut := max p.anchor start
      let (segments, later) := splitLiteral cut stop rest
      (literalRun start cut ++ .marker p.k :: segments, later)
    else (literalRun start stop, p :: rest)

/-- Puts a marker for each pending fragment where its anchor lies: inside a literal run, in front of
a tag, or at the end. -/
def insertMarkers : List Segment → List Pending → List Segment
  | [], pending => pending.map fun p => .marker p.k
  | .literal span :: rest, pending =>
    let (pieces, later) := splitLiteral span.start span.stop pending
    pieces ++ insertMarkers rest later
  | .tag o :: rest, pending =>
    (pending.takeWhile (·.anchor ≤ o.span.start)).map (fun p => .marker p.k) ++
      .tag o :: insertMarkers rest (pending.dropWhile (·.anchor ≤ o.span.start))
  | .marker k :: rest, pending => .marker k :: insertMarkers rest pending

end Segment

namespace Fragment

/-- The fragments by anchor; those with one anchor stay in order. -/
def byAnchor (fragments : List Fragment) : List Pending :=
  (fragments.mapIdx fun k f => ⟨k, f.anchor⟩).mergeSort fun a b => a.anchor ≤ b.anchor

end Fragment

end Shortcode
