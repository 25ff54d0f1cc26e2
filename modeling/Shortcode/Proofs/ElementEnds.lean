import Shortcode.Proofs.Building

/-!
# Where elements are cut

Every end of an element, of its tags or of its body is an end of a token or the end of the text.
So what holds of those places holds of the ends of elements.

    P source.length → (∀ t ∈ markup, P t.span.start ∧ P t.span.stop) →
      ∀ e ∈ (ofMarkup source markup).elements, e.CutsAt P                      (cutsAt_ofMarkup)
-/

namespace Shortcode

/-- `P` holds where the tags of an element and the element itself start and end. -/
structure Element.CutsAt (P : Nat → Prop) (e : Element) : Prop where
  start : P e.startTag.start
  startTag_stop : P e.startTag.stop
  stop : P e.stop
  endTag : ∀ s, e.endTag = some s → P s.start ∧ P s.stop

theorem Element.CutsAt.content_stop {P : Nat → Prop} {e : Element} (h : e.CutsAt P) :
    P e.content.stop := by
  have hmax : ∀ {a b}, P a → P b → P (max a b) := by
    intro a b ha hb
    rw [Nat.max_def]
    split
    · exact hb
    · exact ha
  unfold content
  cases hend : e.endTag with
  | none => exact hmax h.stop h.startTag_stop
  | some s => exact hmax (h.endTag s hend).1 h.startTag_stop

namespace Document

namespace Builder

/-- `P` holds wherever the elements found so far are cut. -/
def CutsAt (P : Nat → Prop) (es : List Element) : Prop := ∀ e ∈ es, e.CutsAt P

section

variable {P : Nat → Prop} {es : List Element}

theorem CutsAt.modify (h : CutsAt P es) {k : Nat} {f : Element → Element}
    (hf : ∀ e, e.CutsAt P → (f e).CutsAt P) : CutsAt P (es.modify k f) := by
  intro e' he'
  obtain ⟨i, hi⟩ := List.mem_iff_getElem?.1 he'
  rcases getElem?_modify_cases hi with ⟨rfl, e, he, rfl⟩ | ⟨_, he⟩
  · exact hf e (h e (List.mem_of_getElem? he))
  · exact h e' (List.mem_of_getElem? he)

theorem CutsAt.endAt (h : CutsAt P es) {stop : Nat} (hstop : P stop) (ended : List OpenElement) :
    CutsAt P (endAt stop ended es) := by
  induction ended generalizing es with
  | nil => exact h
  | cons o rest ih =>
    exact ih (h.modify fun e he => ⟨he.start, he.startTag_stop, hstop, he.endTag⟩)

theorem CutsAt.endParagraph {b : Builder} (h : CutsAt P b.elements) {tag : StartTag}
    (hstart : P tag.span.start) : CutsAt P (b.endParagraph tag).elements := by
  unfold Builder.endParagraph
  split
  · exact h
  · split
    · exact h.endAt hstart _
    · exact h

theorem CutsAt.start {b : Builder} (h : CutsAt P b.elements) (source : Text) {tag : StartTag}
    (hstart : P tag.span.start) (hstop : P tag.span.stop) :
    CutsAt P (b.start source tag).elements := by
  intro e he
  rcases List.mem_append.1 he with he | he
  · exact h.endParagraph hstart e he
  · cases List.mem_singleton.1 he
    exact ⟨hstart, hstop, hstop, nofun⟩

theorem CutsAt.finish {b : Builder} (h : CutsAt P b.elements) {name : Text} {span : Span}
    (hstart : P span.start) (hstop : P span.stop) : CutsAt P (b.finish name span).elements := by
  unfold Builder.finish
  split
  · exact h
  · apply (h.endAt hstart _).modify
    rintro e he
    refine ⟨he.start, he.startTag_stop, hstop, ?_⟩
    rintro s ⟨⟩
    exact ⟨hstart, hstop⟩

theorem CutsAt.step {b : Builder} (h : CutsAt P b.elements) (source : Text) {t : Token}
    (ht : P t.span.start ∧ P t.span.stop) : CutsAt P (b.step source t).elements := by
  cases t with
  | start tag => exact h.start source ht.1 ht.2
  | finish name span => exact h.finish ht.1 ht.2
  | opaqueText span => exact h

theorem CutsAt.foldl {b : Builder} (h : CutsAt P b.elements) (source : Text) {markup : List Token}
    (hmarkup : ∀ t ∈ markup, P t.span.start ∧ P t.span.stop) :
    CutsAt P (markup.foldl (Builder.step source) b).elements := by
  induction markup generalizing b with
  | nil => exact h
  | cons t rest ih =>
    exact ih (h.step source (hmarkup t List.mem_cons_self)) fun t ht =>
      hmarkup t (List.mem_cons_of_mem _ ht)

end

end Builder

/-- Elements are cut where tokens start and end and where the text ends. -/
theorem cutsAt_ofMarkup {P : Nat → Prop} {source : Text} {markup : List Token}
    (hlength : P source.length) (hmarkup : ∀ t ∈ markup, P t.span.start ∧ P t.span.stop)
    {id : ElementId} {e : Element} (he : (ofMarkup source markup).element? id = some e) :
    e.CutsAt P :=
  (Builder.CutsAt.foldl (b := .empty) nofun source hmarkup).endAt hlength _ e
    (List.mem_of_getElem? he)

end Document

end Shortcode
