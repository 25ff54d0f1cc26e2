import Shortcode.Markup.Token
import Shortcode.Text.CharacterReference

/-!
# The elements of a document

A `Document` lists the elements that the markup tokens open, in the order of their start tags, each
with where it ends and the element that it stands in.  An element ends

* at an end tag of its name, which also ends every element opened after it that is still open;
* at the start tag of a block, if it is a `p` and nothing was opened after it that is still open;
* at the end of the text.

An element without a body (a void one, or one written with `/>`) ends with its start tag.  An end
tag of a name that is not open is ignored.
-/

namespace Shortcode

/-! ## Kinds of elements -/

/-- Elements that a relocated text is moved out of. -/
def blockNames : List Text :=
  ["address", "article", "aside", "audio", "blockquote", "canvas", "dd", "div", "dl", "fieldset",
    "figcaption", "figure", "footer", "form", "h1", "h2", "h3", "h4", "h5", "h6", "header",
    "hgroup", "ol", "output", "p", "pre", "section", "table", "ul"].map Text.ofString

/-- Elements that have neither a body nor an end tag. -/
def voidNames : List Text :=
  ["area", "base", "br", "col", "embed", "hr", "img", "input", "link", "meta", "param", "source",
    "track", "wbr"].map Text.ofString

def isBlockName (name : Text) : Bool := blockNames.contains name

def isVoidName (name : Text) : Bool := voidNames.contains name

/-- The name of the paragraph element. -/
def paragraphName : Text := Text.ofString "p"

/-! ## Elements -/

/-- The place of an element in the order of start tags. -/
abbrev ElementId := Nat

structure Element where
  /-- In lower case. -/
  name : Text
  startTag : Span
  /-- The end tag, if there is one. -/
  endTag : Option Span
  /-- The offset after the element. -/
  stop : Nat
  /-- The innermost element that was open at the start tag. -/
  parent : Option ElementId
  /-- Names and values as they are written, with character references. -/
  attributes : List (Text × Option Text)
  deriving DecidableEq

namespace Element

def isBlock (e : Element) : Bool := isBlockName e.name

/-- The span from the start tag to the end of the body. -/
def content (e : Element) : Span :=
  let stop := match e.endTag with
    | some tag => tag.start
    | none => e.stop
  ⟨e.startTag.stop, max stop e.startTag.stop⟩

/-- The span of the whole element. -/
def outer (e : Element) : Span := ⟨e.startTag.start, e.stop⟩

/-- The first attribute of this name, up to case. -/
def attribute? (e : Element) (name : Text) : Option (Text × Option Text) :=
  e.attributes.find? fun a => Text.sameIgnoringCase a.1 name

def hasAttribute (e : Element) (name : Text) : Bool := (e.attribute? name).isSome

/-- The value of an attribute without character references; empty for a name alone. -/
def attributeValue? (e : Element) (name : Text) : Option Text :=
  (e.attribute? name).map fun a =>
    match a.2 with
    | some raw => CharacterReference.decode raw
    | none => []

end Element

/-- The elements of a document in the order of their start tags. -/
structure Document where
  elements : List Element
  deriving DecidableEq

namespace Document

def empty : Document := ⟨[]⟩

/-! ## Building -/

/-- An element whose end has not been found yet. -/
structure OpenElement where
  id : ElementId
  name : Text

/-- The elements found so far and those still open, innermost first. -/
structure Builder where
  elements : List Element
  stack : List OpenElement

namespace Builder

def empty : Builder := ⟨[], []⟩

/-- Ends the open elements of `ended` at `stop`. -/
def endAt (stop : Nat) (ended : List OpenElement) (elements : List Element) : List Element :=
  ended.foldl (fun es o => es.modify o.id fun e => { e with stop := stop }) elements

/-- Ends an innermost open paragraph in front of the start tag of a block. -/
def endParagraph (b : Builder) (tag : StartTag) : Builder :=
  match b.stack with
  | [] => b
  | top :: outer =>
    if isBlockName tag.name && top.name == paragraphName then
      ⟨endAt tag.span.start [top] b.elements, outer⟩
    else b

/-- The element that a start tag opens. -/
def elementOf (source : Text) (tag : StartTag) (parent : Option ElementId) : Element :=
  ⟨tag.name, tag.span, none, tag.span.stop, parent,
    tag.attributes.map fun a => (a.name, a.value.map (·.slice source))⟩

/-- Opens the element of a start tag. -/
def start (source : Text) (b : Builder) (tag : StartTag) : Builder :=
  let b := b.endParagraph tag
  let id := b.elements.length
  ⟨b.elements ++ [elementOf source tag (b.stack.head?.map (·.id))],
    if tag.selfClosing || isVoidName tag.name then b.stack else ⟨id, tag.name⟩ :: b.stack⟩

/-- Ends the innermost open element of this name and those opened after it. -/
def finish (b : Builder) (name : Text) (span : Span) : Builder :=
  match b.stack.dropWhile (·.name != name) with
  | [] => b
  | o :: outer =>
    let implied := endAt span.start (b.stack.takeWhile (·.name != name)) b.elements
    ⟨implied.modify o.id fun e => { e with endTag := some span, stop := span.stop }, outer⟩

def step (source : Text) (b : Builder) : Token → Builder
  | .start tag => b.start source tag
  | .finish name span => b.finish name span
  | .opaqueText _ => b

end Builder

/-- The elements that the markup of `source` makes. -/
def ofMarkup (source : Text) (markup : List Token) : Document :=
  let b := markup.foldl (Builder.step source) .empty
  ⟨Builder.endAt source.length b.stack b.elements⟩

/-! ## Lookups -/

def size (d : Document) : Nat := d.elements.length

def isEmpty (d : Document) : Bool := d.elements.isEmpty

def element? (d : Document) (id : ElementId) : Option Element := d.elements[id]?

/-- The last element of `elements` whose body contains `pos`; the first has the number `id`. -/
def innermostFrom (pos : Nat) (id : ElementId) : List Element → Option ElementId
  | [] => none
  | e :: rest =>
    match innermostFrom pos (id + 1) rest with
    | some inner => some inner
    | none => if e.content.contains pos then some id else none

/-- The innermost element whose body contains `pos`.  Elements stand in the order of their start
tags, so it is the last one. -/
def innermostAt (d : Document) (pos : Nat) : Option ElementId := innermostFrom pos 0 d.elements

/-- The elements around an element, from the nearest outwards.  An element comes after the one it
stands in, so the climb ends. -/
def ancestors (d : Document) (id : ElementId) : List ElementId :=
  match (d.element? id).bind (·.parent) with
  | none => []
  | some parent => if parent < id then parent :: d.ancestors parent else []
termination_by id

def isBlock (d : Document) (id : ElementId) : Bool := (d.element? id).any (·.isBlock)

/-- The nearest block around `pos`. -/
def enclosingBlock (d : Document) (pos : Nat) : Option ElementId :=
  match d.innermostAt pos with
  | none => none
  | some id => (id :: d.ancestors id).find? d.isBlock

end Document

/-- An element together with the document it is in; a handler may look, not change. -/
structure Node where
  document : Document
  id : ElementId
  element : Element
  deriving DecidableEq

namespace Node

def get? (d : Document) (id : ElementId) : Option Node := (d.element? id).map fun e => ⟨d, id, e⟩

def ancestors (n : Node) : List ElementId := n.document.ancestors n.id

/-- Whether two nodes of one document are the same element. -/
def sameAs (a b : Node) : Bool := a.id == b.id

end Node

end Shortcode
