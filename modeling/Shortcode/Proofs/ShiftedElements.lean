import Shortcode.Proofs.ShiftedScans

/-!
# Elements behind other text

The elements of a document are built from the spans of its tokens and the names and values in them.
With more text in front they are the same elements further on, with the same parents.  So the block
around a tag is the same, and a relocated text goes to the same place or is refused alike.

    Document.ofMarkup (p ++ source) (markup.map (·.shifted p.length)) =
      (Document.ofMarkup source markup).shifted p.length                        (ofMarkup_shifted)
-/

namespace Shortcode

/-! ## Elements -/

namespace Span

theorem contains_shifted (n : Nat) (s : Span) (pos : Nat) :
    (s.shifted n).contains (pos + n) = s.contains pos := by
  rw [Bool.eq_iff_iff, contains_iff, contains_iff]
  exact and_congr (Nat.add_le_add_iff_right ..) (Nat.add_lt_add_iff_right ..)

theorem strictlyContains_shifted (n : Nat) (s : Span) (pos : Nat) :
    (s.shifted n).strictlyContains (pos + n) = s.strictlyContains pos := by
  rw [Bool.eq_iff_iff, strictlyContains_iff, strictlyContains_iff]
  exact and_congr (Nat.add_lt_add_iff_right ..) (Nat.add_lt_add_iff_right ..)

end Span

/-- The element `n` bytes further on. -/
def Element.shifted (n : Nat) (e : Element) : Element :=
  { e with
    startTag := e.startTag.shifted n
    endTag := e.endTag.map (·.shifted n)
    stop := e.stop + n }

theorem Element.content_shifted (n : Nat) (e : Element) :
    (e.shifted n).content = e.content.shifted n := by
  unfold content shifted
  cases e.endTag <;> exact congrArg (Span.mk _) (Nat.add_max_add_right ..)

namespace Document

/-- The document with each element `n` bytes further on. -/
def shifted (n : Nat) (d : Document) : Document := ⟨d.elements.map (·.shifted n)⟩

/-! ## Building -/

namespace Builder

def shifted (n : Nat) (b : Builder) : Builder := ⟨b.elements.map (·.shifted n), b.stack⟩

/-- A change of one element that is the same further on. -/
theorem modify_shifted (n : Nat) {f g : Element → Element}
    (h : ∀ e, g (e.shifted n) = (f e).shifted n) (es : List Element) (id : ElementId) :
    (es.map (·.shifted n)).modify id g = (es.modify id f).map (·.shifted n) := by
  refine List.ext_getElem? fun i => ?_
  rw [List.getElem?_modify, List.getElem?_map, List.getElem?_map, List.getElem?_modify]
  cases es[i]? with
  | none => rfl
  | some e =>
    by_cases hi : id = i
    · simp only [hi, if_true]
      exact congrArg some (h e)
    · simp only [hi, if_false]
      rfl

theorem endAt_shifted (n stop : Nat) (ended : List OpenElement) (es : List Element) :
    endAt (stop + n) ended (es.map (·.shifted n)) = (endAt stop ended es).map (·.shifted n) := by
  unfold endAt
  induction ended generalizing es with
  | nil => rfl
  | cons o rest ih =>
    rw [List.foldl_cons, List.foldl_cons,
      modify_shifted n (f := fun e => { e with stop := stop }) fun _ => rfl]
    exact ih _

theorem endParagraph_shifted (n : Nat) (b : Builder) (tag : StartTag) :
    (b.shifted n).endParagraph (tag.shifted n) = (b.endParagraph tag).shifted n := by
  obtain ⟨es, stack⟩ := b
  cases stack with
  | nil => rfl
  | cons top outer =>
    unfold endParagraph shifted
    simp only [StartTag.shifted, Span.shifted_start, endAt_shifted]
    split <;> rfl

variable (p source : Text)

theorem elementOf_shifted (tag : StartTag) (parent : Option ElementId) :
    elementOf (p ++ source) (tag.shifted p.length) parent =
      (elementOf source tag parent).shifted p.length := by
  have hattributes : (tag.shifted p.length).attributes.map
        (fun a => (a.name, a.value.map (·.slice (p ++ source)))) =
      tag.attributes.map fun a => (a.name, a.value.map (·.slice source)) := by
    rw [StartTag.shifted, List.map_map]
    refine List.map_congr_left fun a _ => ?_
    simp only [Function.comp_apply, Attribute.shifted, Option.map_map, Function.comp_def,
      Span.slice_shifted]
  unfold elementOf
  rw [hattributes]
  rfl

theorem start_shifted (b : Builder) (tag : StartTag) :
    start (p ++ source) (b.shifted p.length) (tag.shifted p.length) =
      (start source b tag).shifted p.length := by
  have hclosed : ((tag.shifted p.length).selfClosing || isVoidName (tag.shifted p.length).name) =
      (tag.selfClosing || isVoidName tag.name) := rfl
  simp only [start, endParagraph_shifted, elementOf_shifted, hclosed]
  simp only [shifted, List.length_map, List.map_append, List.map_cons, List.map_nil]
  rfl

theorem finish_shifted (n : Nat) (b : Builder) (name : Text) (span : Span) :
    (b.shifted n).finish name (span.shifted n) = (b.finish name span).shifted n := by
  have hstack : (b.shifted n).stack = b.stack := rfl
  unfold finish
  rw [hstack]
  cases b.stack.dropWhile (·.name != name) with
  | nil => rfl
  | cons o outer =>
    simp only [shifted, Span.shifted_start, endAt_shifted]
    rw [modify_shifted n (f := fun e => { e with endTag := some span, stop := span.stop })
      fun _ => rfl]

theorem step_shifted (b : Builder) (t : Token) :
    step (p ++ source) (b.shifted p.length) (t.shifted p.length) =
      (step source b t).shifted p.length := by
  cases t with
  | start tag => exact start_shifted p source b tag
  | finish name span => exact finish_shifted p.length b name span
  | opaqueText span => rfl

theorem foldl_step_shifted (b : Builder) (markup : List Token) :
    (markup.map (·.shifted p.length)).foldl (step (p ++ source)) (b.shifted p.length) =
      (markup.foldl (step source) b).shifted p.length := by
  induction markup generalizing b with
  | nil => rfl
  | cons t rest ih =>
    rw [List.map_cons, List.foldl_cons, List.foldl_cons, step_shifted]
    exact ih _

end Builder

theorem ofMarkup_shifted (p source : Text) (markup : List Token) :
    ofMarkup (p ++ source) (markup.map (·.shifted p.length)) =
      (ofMarkup source markup).shifted p.length := by
  have hbuilt := Builder.foldl_step_shifted p source .empty markup
  have hempty : Builder.empty.shifted p.length = .empty := rfl
  rw [hempty] at hbuilt
  unfold ofMarkup shifted
  dsimp only
  rw [hbuilt, List.length_append, Nat.add_comm p.length]
  exact congrArg Document.mk (Builder.endAt_shifted ..)

/-- **Inert text in front shifts the elements.** -/
theorem ofMarkup_append {p : Text} (hp : p.Inert) (source : Text) (pairs : Text → Bool) :
    ofMarkup (p ++ source) (Scan.ofText (p ++ source) pairs).markup =
      (ofMarkup source (Scan.ofText source pairs).markup).shifted p.length := by
  rw [Scan.markup_ofText, Scan.markup_ofText, Scan.tokens_append hp, ofMarkup_shifted]

/-! ## Lookups -/

variable (n : Nat) (d : Document)

theorem element?_shifted (id : ElementId) :
    (d.shifted n).element? id = (d.element? id).map (·.shifted n) := List.getElem?_map

theorem innermostAt_shifted (pos : Nat) :
    (d.shifted n).innermostAt (pos + n) = d.innermostAt pos := by
  suffices ∀ (es : List Element) (id : ElementId),
      innermostFrom (pos + n) id (es.map (·.shifted n)) = innermostFrom pos id es from this _ 0
  intro es
  induction es with
  | nil => exact fun _ => rfl
  | cons e rest ih =>
    intro id
    rw [List.map_cons, innermostFrom, innermostFrom, ih, Element.content_shifted,
      Span.contains_shifted]

theorem ancestors_shifted (id : ElementId) : (d.shifted n).ancestors id = d.ancestors id := by
  refine ancestors_congr fun i _ => ?_
  rw [element?_shifted, Option.bind_map]
  rfl

theorem isBlock_shifted (id : ElementId) : (d.shifted n).isBlock id = d.isBlock id := by
  rw [isBlock, isBlock, element?_shifted, Option.any_map]
  rfl

theorem enclosingBlock_shifted (pos : Nat) :
    (d.shifted n).enclosingBlock (pos + n) = d.enclosingBlock pos := by
  have hblock : (d.shifted n).isBlock = d.isBlock := funext (isBlock_shifted n d)
  simp only [enclosingBlock, innermostAt_shifted, ancestors_shifted, hblock]

end Document

/-! ## What a handler is given -/

/-- The element `n` bytes further on, in a document that is so too. -/
def Node.shifted (n : Nat) (node : Node) : Node :=
  ⟨node.document.shifted n, node.id, node.element.shifted n⟩

theorem Node.get?_shifted (n : Nat) (d : Document) (id : ElementId) :
    Node.get? (d.shifted n) id = (Node.get? d id).map (·.shifted n) := by
  rw [get?, get?, Document.element?_shifted, Option.map_map, Option.map_map]
  rfl

def Surroundings.shifted (n : Nat) (s : Surroundings) : Surroundings :=
  { s with node := s.node.map (·.shifted n), block := s.block.map (·.shifted n) }

theorem Surroundings.of_shifted (n : Nat) (o : Occurrence) (d : Document) :
    Surroundings.of (o.shifted n) (d.shifted n) = (Surroundings.of o d).shifted n := by
  have hbind : ∀ id : Option ElementId, id.bind (Node.get? (d.shifted n)) =
      (id.bind (Node.get? d)).map (·.shifted n) := fun id => by
    cases id with
    | none => rfl
    | some id => exact Node.get?_shifted n d id
  unfold Surroundings.of Occurrence.shifted
  cases o.context with
  | body =>
    simp only [Span.shifted_start, Document.innermostAt_shifted, Document.enclosingBlock_shifted,
      hbind]
    rfl
  | verbatim region element => rfl
  | attributeValue region element name => rfl

/-- The call with all offsets `n` bytes further on. -/
def Invocation.shifted (n : Nat) (i : Invocation) : Invocation :=
  { i with surroundings := i.surroundings.shifted n }

theorem Occurrence.contentText_shifted (p source : Text) (o : Occurrence) :
    (o.shifted p.length).contentText (p ++ source) = o.contentText source := by
  unfold contentText shifted
  rw [Option.map_map]
  exact congrArg (Option.map · o.content) (funext fun c => c.slice_shifted p source)

theorem Rules.invocation_shifted (rules : Rules) (p source : Text) (d : Document)
    (o : Occurrence) :
    rules.invocation (p ++ source) (d.shifted p.length) (o.shifted p.length) =
      (rules.invocation source d o).shifted p.length := by
  rw [invocation, Occurrence.contentText_shifted, Surroundings.of_shifted]
  rfl

/-! ## Where a text goes -/

def Refusal.shifted (n : Nat) : Refusal → Refusal
  | .splitUnsupported => .splitUnsupported
  | .noBlock placement => .noBlock placement
  | .insideTag element anchor => .insideTag element (anchor + n)

/-- A refusal is logged with its level, wherever the tag stands. -/
theorem Refusal.level_shifted (n : Nat) (o : Occurrence) (why : Refusal) :
    ((why.shifted n).record (o.shifted n)).level = (why.record o).level := by
  cases why <;> rfl

def Destination.shifted (n : Nat) : Destination → Destination
  | .inline => .inline
  | .anchor position => .anchor (position + n)
  | .refused why => .refused (why.shifted n)

namespace Occurrence

variable (n : Nat) (o : Occurrence) (placement : Placement) (d : Document) (spans : List Span)

theorem block_shifted {boundary : Element → Nat}
    (h : ∀ e, boundary (e.shifted n) = boundary e + n) :
    destination.block (o.shifted n) placement (d.shifted n) (spans.map (·.shifted n)) boundary =
      (destination.block o placement d spans boundary).shifted n := by
  have helement : ((d.shifted n).enclosingBlock (o.shifted n).span.start).bind
      (d.shifted n).element? =
      ((d.enclosingBlock o.span.start).bind d.element?).map (·.shifted n) := by
    rw [shifted, Span.shifted_start, Document.enclosingBlock_shifted, Option.map_bind]
    exact congrArg _ (funext (Document.element?_shifted n d))
  have hany : ∀ pos, (spans.map (·.shifted n)).any (·.strictlyContains (pos + n)) =
      spans.any (·.strictlyContains pos) := fun pos => by
    rw [List.any_map]
    exact congrArg spans.any (funext fun s => s.strictlyContains_shifted n pos)
  unfold destination.block
  show (if (!o.context.isBody) = true then _ else _) = _
  split
  · rfl
  · rw [helement]
    cases (d.enclosingBlock o.span.start).bind d.element? with
    | none => rfl
    | some e =>
      simp only [Option.map_some, h, hany]
      split <;> rfl

theorem destination_shifted :
    (o.shifted n).destination placement (d.shifted n) (spans.map (·.shifted n)) =
      (o.destination placement d spans).shifted n := by
  cases placement with
  | inline => rfl
  | split => rfl
  | before => exact block_shifted n o .before d spans fun _ => rfl
  | after => exact block_shifted n o .after d spans fun _ => rfl

end Occurrence

end Shortcode
