import Mathlib.Data.List.Induction
import Shortcode.Proofs.Forest

/-!
# Paragraphs and blocks

The start tag of a block ends a paragraph that is the innermost open element, and no other one.  So
no block stands in a paragraph exactly if no paragraph is open further out when the start tag of a
block is read.

    ParagraphsEnd source markup ↔ ParagraphsInnermost source markup           (paragraphsEnd_iff)

In `<p><b><div>` the block stands in the paragraph (`exists_block_in_paragraph`).
-/

namespace Shortcode

namespace Document

namespace Builder

/-- What a builder holds that has seen these tokens. -/
def seen (source : Text) (before : List Token) : Builder := before.foldl (step source) .empty

/-- Whether a paragraph is open around the innermost open element. -/
def coversParagraph (b : Builder) : Bool := b.stack.tail.any (·.name == paragraphName)

theorem seen_concat (source : Text) (before : List Token) (t : Token) :
    seen source (before ++ [t]) = (seen source before).step source t := by
  rw [seen, seen, List.foldl_append]
  rfl

/-! ## Names and parents -/

/-- The name and the parent of each element, in the order of start tags. -/
def outline (es : List Element) : List (Text × Option ElementId) :=
  es.map fun e => (e.name, e.parent)

theorem outline_modify {es : List Element} {k : Nat} {f : Element → Element}
    (hf : ∀ e, ((f e).name, (f e).parent) = (e.name, e.parent)) :
    outline (es.modify k f) = outline es :=
  map_modify_eq _ fun e _ => hf e

theorem outline_endAt (stop : Nat) (ended : List OpenElement) (es : List Element) :
    outline (endAt stop ended es) = outline es := by
  induction ended generalizing es with
  | nil => rfl
  | cons o rest ih => exact (ih _).trans (outline_modify fun _ => rfl)

theorem outline_endParagraph (b : Builder) (tag : StartTag) :
    outline (b.endParagraph tag).elements = outline b.elements := by
  unfold endParagraph
  split
  · rfl
  · split
    · exact outline_endAt _ _ _
    · rfl

theorem outline_finish (b : Builder) (name : Text) (span : Span) :
    outline (b.finish name span).elements = outline b.elements := by
  unfold finish
  split
  · rfl
  · dsimp only
    rw [outline_modify, outline_endAt]
    exact fun _ => rfl

theorem outline_start (source : Text) (b : Builder) (tag : StartTag) :
    outline (b.start source tag).elements =
      outline b.elements ++ [(tag.name, (b.endParagraph tag).stack.head?.map (·.id))] := by
  rw [← outline_endParagraph b tag, start, outline, List.map_append]
  rfl

/-- What is known of names and parents stays. -/
theorem outline_step (source : Text) (b : Builder) (t : Token) :
    outline b.elements <+: outline (b.step source t).elements := by
  cases t with
  | start tag => exact ⟨_, (outline_start source b tag).symm⟩
  | finish name span => exact ⟨[], by rw [List.append_nil]; exact (outline_finish b name span).symm⟩
  | opaqueText span => exact List.prefix_rfl

theorem outline_foldl (source : Text) (b : Builder) (tokens : List Token) :
    outline b.elements <+: outline (tokens.foldl (step source) b).elements := by
  induction tokens generalizing b with
  | nil => exact List.prefix_rfl
  | cons t rest ih => exact (outline_step source b t).trans (ih _)

end Builder

open Builder (outline seen)

section

variable {d d' : Document} (h : outline d.elements <+: outline d'.elements)

include h

theorem element?_of_outline {id : ElementId} {e : Element} (he : d.element? id = some e) :
    ∃ e', d'.element? id = some e' ∧ e'.name = e.name ∧ e'.parent = e.parent := by
  obtain ⟨more, hmore⟩ := h
  obtain ⟨hlt, -⟩ := List.getElem?_eq_some_iff.1 he
  have hmap : (outline d'.elements)[id]? = (outline d.elements)[id]? := by
    rw [← hmore, List.getElem?_append_left (by rwa [outline, List.length_map])]
  rw [outline, outline, List.getElem?_map, List.getElem?_map, show d.elements[id]? = some e from he]
    at hmap
  obtain ⟨e', he', hpair⟩ := Option.map_eq_some_iff.1 hmap
  exact ⟨e', he', congrArg Prod.fst hpair, congrArg Prod.snd hpair⟩

theorem ancestors_of_outline {id : ElementId} (hid : id < d.elements.length) :
    d'.ancestors id = d.ancestors id := by
  apply Builder.ancestors_eq_of_parents
  intro k hk
  have he : d.element? k = some _ := List.getElem?_eq_getElem (Nat.lt_of_le_of_lt hk hid)
  obtain ⟨e', he', -, hparent⟩ := element?_of_outline h he
  rw [show d.elements[k]? = some _ from he, show d'.elements[k]? = some e' from he']
  exact congrArg some hparent

end

/-! ## Blocks in paragraphs -/

/-- No block stands in a paragraph. -/
def BlocksApart (d : Document) : Prop :=
  ∀ id e, d.element? id = some e → e.isBlock = true →
    ∀ a ∈ d.ancestors id, ∀ p, d.element? a = some p → p.name ≠ paragraphName

/-- What holds of a document held of it while it was shorter. -/
theorem BlocksApart.of_prefix {d d' : Document} (h : d.BlocksApart)
    (houtline : outline d'.elements <+: outline d.elements) : d'.BlocksApart := by
  intro id e he hblock a ha p hp
  obtain ⟨e', he', hname, -⟩ := element?_of_outline houtline he
  obtain ⟨p', hp', hname', -⟩ := element?_of_outline houtline hp
  rw [← hname']
  refine h id e' he' ?_ a ?_ p' hp'
  · rw [Element.isBlock, hname]
    exact hblock
  · rw [ancestors_of_outline houtline (List.getElem?_eq_some_iff.1 he).1]
    exact ha

theorem BlocksApart.of_outline {d d' : Document} (h : d.BlocksApart)
    (houtline : outline d'.elements = outline d.elements) : d'.BlocksApart :=
  h.of_prefix (houtline ▸ List.prefix_rfl)

namespace Builder

/-- A block does not open in a paragraph if none is open further out. -/
theorem name_ne_of_endParagraph {b : Builder} {tag : StartTag}
    (hblock : isBlockName tag.name = true) (hcover : b.coversParagraph = false) :
    ∀ o ∈ (b.endParagraph tag).stack, o.name ≠ paragraphName := by
  obtain ⟨es, stack⟩ := b
  rw [coversParagraph, List.any_eq_false] at hcover
  cases stack with
  | nil => exact fun o ho => absurd ho List.not_mem_nil
  | cons top outer =>
    have houter : ∀ o ∈ outer, o.name ≠ paragraphName := by simpa using hcover
    simp only [endParagraph, hblock, Bool.true_and]
    split
    · exact houter
    · rename_i htop
      exact List.forall_mem_cons.2 ⟨by simpa using htop, houter⟩

section

variable {before : List Token} {pos : Nat} {es : List Element} {stack : List OpenElement}
  {e : Element} (hinv : Inv before pos ⟨es, stack⟩)
  (hparent : e.parent = stack.head?.map (·.id))

include hinv hparent

/-- A new element stands in the open elements and in no others. -/
theorem BlocksApart.concat (h : BlocksApart ⟨es⟩)
    (hopen : e.isBlock = true → ∀ o ∈ stack, o.name ≠ paragraphName) :
    BlocksApart ⟨es ++ [e]⟩ := by
  intro id e' he' hblock a ha p hp
  rcases getElem?_append_cases he' with ⟨rfl, rfl⟩ | ⟨hlt, he'⟩
  · rw [hinv.ancestors_new hparent] at ha
    obtain ⟨o, ho, rfl⟩ := List.mem_map.1 ha
    obtain ⟨eo, heo, hname, -⟩ := hinv.opened o ho
    have hp' : es[o.id]? = some p := by
      rwa [← List.getElem?_append_left (List.getElem?_eq_some_iff.1 heo).1]
    cases heo.symm.trans hp'
    rw [hname]
    exact hopen hblock o ho
  · rw [ancestors_append hlt] at ha
    have hp' : es[a]? = some p := by
      rwa [← List.getElem?_append_left (Nat.lt_trans (lt_of_mem_ancestors ha) hlt)]
    exact h id e' he' hblock a ha p hp'

end

theorem mem_endParagraph_of_tail {b : Builder} (tag : StartTag) {o : OpenElement}
    (ho : o ∈ b.stack.tail) : o ∈ (b.endParagraph tag).stack := by
  obtain ⟨es, stack⟩ := b
  cases stack with
  | nil => cases ho
  | cons top outer =>
    simp only [endParagraph]
    split
    · exact ho
    · exact List.mem_cons_of_mem _ ho

section

variable {before : List Token} {b : Builder} (source : Text)

/-- A block that opens while a paragraph is open further out stands in that paragraph. -/
theorem not_blocksApart_start {tag : StartTag} (hinv : Inv before tag.span.start b)
    (hblock : isBlockName tag.name = true) (hcover : b.coversParagraph = true) :
    ¬ (b.start source tag).document.BlocksApart := by
  obtain ⟨o, ho, hname⟩ := List.any_eq_true.1 hcover
  have hmem := mem_endParagraph_of_tail tag ho
  have hpar := hinv.endParagraph
  rw [document, Builder.start]
  generalize b.endParagraph tag = b at hmem hpar
  obtain ⟨es, stack⟩ := b
  intro hapart
  obtain ⟨p, hp, hpname, -⟩ := hpar.opened o hmem
  have hanc := hpar.ancestors_new (e := elementOf source tag (stack.head?.map (·.id))) rfl
  refine hapart es.length _ List.getElem?_concat_length hblock o.id ?_ p ?_ ?_
  · rw [hanc]
    exact List.mem_map_of_mem hmem
  · exact (List.getElem?_append_left (List.getElem?_eq_some_iff.1 hp).1).trans hp
  · exact hpname.trans (by simpa using hname)

theorem BlocksApart.start {tag : StartTag} (hinv : Inv before tag.span.start b)
    (h : b.document.BlocksApart)
    (hcover : isBlockName tag.name = true → b.coversParagraph = false) :
    (b.start source tag).document.BlocksApart := by
  have hpar := hinv.endParagraph
  have hapart : (b.endParagraph tag).document.BlocksApart :=
    h.of_outline (outline_endParagraph b tag)
  have hnames : isBlockName tag.name = true →
      ∀ o ∈ (b.endParagraph tag).stack, o.name ≠ paragraphName :=
    fun hblock => name_ne_of_endParagraph hblock (hcover hblock)
  rw [document, Builder.start]
  generalize b.endParagraph tag = b at hpar hapart hnames
  obtain ⟨es, stack⟩ := b
  exact BlocksApart.concat (e := elementOf source tag (stack.head?.map (·.id))) hpar rfl hapart
    hnames

theorem BlocksApart.step {t : Token} (hinv : Inv before t.span.start b)
    (h : b.document.BlocksApart)
    (hcover : ∀ tag, t = .start tag → isBlockName tag.name = true → b.coversParagraph = false) :
    (b.step source t).document.BlocksApart := by
  cases t with
  | start tag => exact BlocksApart.start source hinv h (hcover tag rfl)
  | finish name span => exact h.of_outline (outline_finish b name span)
  | opaqueText span => exact h

end

/-! ## Elements that have ended -/

/-- Element `id` has ended as `e`. -/
structure Ended (id : ElementId) (e : Element) (b : Builder) : Prop where
  found : b.elements[id]? = some e
  closed : id ∉ b.openIds

section

variable {id : ElementId} {e : Element} {b : Builder}

theorem getElem?_endAt {es : List Element} (he : es[id]? = some e) {ended : List OpenElement}
    (hid : id ∉ ended.map (·.id)) (stop : Nat) : (endAt stop ended es)[id]? = some e := by
  induction ended generalizing es with
  | nil => exact he
  | cons o rest ih =>
    rw [List.map_cons, List.mem_cons, not_or] at hid
    exact ih ((List.getElem?_modify_ne _ es (Ne.symm hid.1)).trans he) hid.2

theorem Ended.endParagraph (h : Ended id e b) (tag : StartTag) :
    Ended id e (b.endParagraph tag) := by
  obtain ⟨es, stack⟩ := b
  obtain ⟨hfound, hclosed⟩ := h
  cases stack with
  | nil => exact ⟨hfound, hclosed⟩
  | cons top outer =>
    rw [openIds, List.map_cons, List.mem_cons, not_or] at hclosed
    simp only [Builder.endParagraph]
    split
    · exact ⟨getElem?_endAt hfound (by simpa using hclosed.1) _, hclosed.2⟩
    · exact ⟨hfound, by simpa [openIds] using hclosed⟩

theorem Ended.start {tag : StartTag} (h : Ended id e (b.endParagraph tag)) (source : Text) :
    Ended id e (b.start source tag) := by
  obtain ⟨hfound, hclosed⟩ := h
  have hlt := (List.getElem?_eq_some_iff.1 hfound).1
  refine ⟨(List.getElem?_append_left hlt).trans hfound, ?_⟩
  rw [Builder.start, openIds]
  dsimp only
  split
  · exact hclosed
  · rw [List.map_cons, List.mem_cons, not_or]
    exact ⟨Nat.ne_of_lt hlt, hclosed⟩

theorem Ended.finish (h : Ended id e b) (name : Text) (span : Span) :
    Ended id e (b.finish name span) := by
  obtain ⟨hfound, hclosed⟩ := h
  have hsplit :
      b.stack.takeWhile (·.name != name) ++ b.stack.dropWhile (·.name != name) = b.stack :=
    List.takeWhile_append_dropWhile
  rw [Builder.finish]
  split
  · exact ⟨hfound, hclosed⟩
  · rename_i o outer hdrop
    rw [openIds, ← hsplit, hdrop, List.map_append, List.map_cons, List.mem_append, List.mem_cons,
      not_or, not_or] at hclosed
    obtain ⟨htop, ho, houter⟩ := hclosed
    refine ⟨?_, houter⟩
    dsimp only
    rw [List.getElem?_modify_ne _ _ (Ne.symm ho)]
    exact getElem?_endAt hfound htop _

theorem Ended.step (h : Ended id e b) (source : Text) (t : Token) :
    Ended id e (b.step source t) := by
  cases t with
  | start tag => exact (h.endParagraph tag).start source
  | finish name span => exact h.finish name span
  | opaqueText span => exact h

theorem Ended.foldl (h : Ended id e b) (source : Text) (tokens : List Token) :
    Ended id e (tokens.foldl (Builder.step source) b) := by
  induction tokens generalizing b with
  | nil => exact h
  | cons t rest ih => exact ih (h.step source t)

end

end Builder

/-! ## Main statement -/

/-- Wherever the start tag of a block is read, no paragraph is open but the innermost element. -/
def ParagraphsInnermost (source : Text) (markup : List Token) : Prop :=
  ∀ before tag after, markup = before ++ .start tag :: after → isBlockName tag.name = true →
    (seen source before).coversParagraph = false

/-- Whether the token at place `k` opens no block while a paragraph is open further out. -/
def opensApart (source : Text) (markup : List Token) (k : Nat) : Bool :=
  match markup[k]? with
  | some (.start tag) => !(isBlockName tag.name && (seen source (markup.take k)).coversParagraph)
  | _ => true

theorem opensApart_iff {source : Text} {markup : List Token} :
    (∀ k < markup.length, opensApart source markup k = true) ↔
      ParagraphsInnermost source markup := by
  constructor
  · rintro h before tag after rfl hblock
    have hk := h before.length (by simp)
    simpa [opensApart, hblock] using hk
  · intro h k hk
    have hsplit : markup = markup.take k ++ markup[k] :: markup.drop (k + 1) := by simp
    rw [opensApart, List.getElem?_eq_getElem hk]
    generalize markup[k] = t at hsplit
    cases t with
    | start tag =>
      have hcover := h _ tag _ hsplit
      cases hblock : isBlockName tag.name with
      | false => simp [hblock]
      | true => simp [hcover hblock]
    | finish name span => rfl
    | opaqueText span => rfl

instance (source : Text) (markup : List Token) : Decidable (ParagraphsInnermost source markup) :=
  decidable_of_iff _ opensApart_iff

/-- What makes every block end the paragraphs that are open in front of it. -/
structure ParagraphsEnd (source : Text) (markup : List Token) : Prop where
  /-- No block has a paragraph among the elements around it. -/
  apart : (ofMarkup source markup).BlocksApart
  /-- A paragraph that is open when the start tag of a block is read ends in front of the tag. -/
  ends : ∀ before tag after, markup = before ++ .start tag :: after → isBlockName tag.name = true →
    ∀ o ∈ (seen source before).stack, o.name = paragraphName →
      ∃ p, (ofMarkup source markup).element? o.id = some p ∧ p.name = paragraphName ∧
        p.stop ≤ tag.span.start

section

variable {source : Text} {pairs : Text → Bool} {before after : List Token} {tag : StartTag}

theorem blocksApart_seen
    (hinner : ParagraphsInnermost source (Scan.ofText source pairs).markup)
    (hsplit : (Scan.ofText source pairs).markup = before ++ after) :
    (seen source before).document.BlocksApart := by
  induction before using List.reverseRecOn generalizing after with
  | nil => exact fun id e he => nomatch he
  | append_singleton before t ih =>
    rw [List.append_assoc, List.singleton_append] at hsplit
    obtain ⟨pos, hinv, horder⟩ := inv_of_split hsplit
    rw [Builder.seen_concat]
    exact Builder.BlocksApart.step source (hinv.mono horder.1 (List.Subset.refl _)) (ih hsplit)
      fun tag ht => hinner before tag after (ht ▸ hsplit)

variable (hsplit : (Scan.ofText source pairs).markup = before ++ .start tag :: after)
  (hblock : isBlockName tag.name = true)

include hsplit hblock

/-- A paragraph that is the innermost open element ends where the start tag of a block starts. -/
theorem paragraph_stop {o : OpenElement} {outer : List OpenElement}
    (hstack : (seen source before).stack = o :: outer) (ho : o.name = paragraphName) :
    ∃ p, (ofMarkup source (Scan.ofText source pairs).markup).element? o.id = some p ∧
      p.name = paragraphName ∧ p.stop = tag.span.start := by
  obtain ⟨pos, hinv, -⟩ := inv_of_split hsplit
  have hended : ∃ p, p.name = paragraphName ∧ p.stop = tag.span.start ∧
      Builder.Ended o.id p ((seen source before).endParagraph tag) := by
    change Builder.Inv before pos (seen source before) at hinv
    generalize seen source before = b at hinv hstack
    obtain ⟨es, stack⟩ := b
    cases hstack
    obtain ⟨e, he, hname, -⟩ := hinv.opened o List.mem_cons_self
    refine ⟨{ e with stop := tag.span.start }, hname.trans ho, rfl, ?_, ?_⟩
    · simp only [Builder.endParagraph, hblock, ho, beq_self_eq_true, Bool.and_self, if_true]
      exact (List.getElem?_modify_eq _ _ _).trans (congrArg _ he)
    · simp only [Builder.endParagraph, hblock, ho, beq_self_eq_true, Bool.and_self, if_true]
      exact hinv.notMem_outer (Nat.le_refl _)
  obtain ⟨p, hname, hstop, hended⟩ := hended
  have hlast := (hended.start source).foldl source after
  have hseen : (Scan.ofText source pairs).markup.foldl (Builder.step source) .empty =
      after.foldl (Builder.step source) ((seen source before).start source tag) := by
    rw [hsplit, List.foldl_append]
    rfl
  rw [← hseen] at hlast
  exact ⟨p, Builder.getElem?_endAt hlast.found hlast.closed _, hname, hstop⟩

/-- It also stands in that paragraph when the whole text has been read. -/
theorem not_blocksApart (hcover : (seen source before).coversParagraph = true) :
    ¬ (ofMarkup source (Scan.ofText source pairs).markup).BlocksApart := by
  obtain ⟨pos, hinv, horder⟩ := inv_of_split hsplit
  have hinv : Builder.Inv before tag.span.start (seen source before) :=
    hinv.mono horder.1 (List.Subset.refl _)
  have houtline : outline ((seen source before).start source tag).elements <+:
      outline (ofMarkup source (Scan.ofText source pairs).markup).elements := by
    rw [ofMarkup, Builder.outline_endAt, hsplit, List.foldl_append]
    exact Builder.outline_foldl source _ after
  exact fun h => Builder.not_blocksApart_start source hinv hblock hcover (h.of_prefix houtline)

end

/-- **Blocks stand in no paragraphs exactly if no block opens while a paragraph is open further
out.**  A paragraph that is the innermost open element is ended by the start tag of a block; one
that holds another open element is not. -/
theorem paragraphsEnd_iff (source : Text) (pairs : Text → Bool) :
    ParagraphsEnd source (Scan.ofText source pairs).markup ↔
      ParagraphsInnermost source (Scan.ofText source pairs).markup := by
  constructor
  · intro h before tag after hsplit hblock
    exact Bool.eq_false_iff.2 fun hcover => not_blocksApart hsplit hblock hcover h.apart
  · intro hinner
    refine ⟨?_, ?_⟩
    · exact (blocksApart_seen hinner (List.append_nil _).symm).of_outline
        (Builder.outline_endAt _ _ _)
    · intro before tag after hsplit hblock o ho hname
      have hcover := hinner before tag after hsplit hblock
      rw [Builder.coversParagraph, List.any_eq_false] at hcover
      -- the paragraph is not further out, so it is the innermost open element
      cases hstack : (seen source before).stack with
      | nil => exact absurd (hstack ▸ ho) List.not_mem_nil
      | cons top outer =>
        rw [hstack] at ho hcover
        rcases List.mem_cons.1 ho with rfl | ho
        · obtain ⟨p, hp, hpname, hstop⟩ := paragraph_stop hsplit hblock hstack hname
          exact ⟨p, hp, hpname, Nat.le_of_eq hstop⟩
        · exact absurd hname (by simpa using hcover o ho)

/-- The `b` has ended when the list starts, so the paragraph is the innermost open element. -/
theorem paragraphsEnd_nested :
    (let source := Text.ofString "<div><p>a<b>b</b><ul>c";
    ParagraphsEnd source (Scan.ofText source fun _ => true).markup) :=
  (paragraphsEnd_iff _ _).2 (by decide +kernel)

/-- A block in a paragraph: the `b` that is open in the paragraph keeps it open when the `div`
starts. -/
theorem exists_block_in_paragraph :
    (let source := Text.ofString "<p><b><div>";
    let markup := (Scan.ofText source fun _ => true).markup;
    (∃ block p, (ofMarkup source markup).element? 2 = some block ∧ block.isBlock = true ∧
      block.startTag = ⟨6, 11⟩ ∧ (ofMarkup source markup).ancestors 2 = [1, 0] ∧
      (ofMarkup source markup).element? 0 = some p ∧ p.name = paragraphName ∧ p.stop = 11) ∧
    ¬ ParagraphsEnd source markup) := by
  intro source markup
  have hfound : ∃ block p, (ofMarkup source markup).element? 2 = some block ∧
      block.isBlock = true ∧ block.startTag = ⟨6, 11⟩ ∧
      (ofMarkup source markup).ancestors 2 = [1, 0] ∧
      (ofMarkup source markup).element? 0 = some p ∧ p.name = paragraphName ∧ p.stop = 11 :=
    ⟨⟨Text.ofString "div", ⟨6, 11⟩, none, 11, some 1, []⟩,
      ⟨paragraphName, ⟨0, 3⟩, none, 11, none, []⟩, by decide +kernel⟩
  refine ⟨hfound, fun h => ?_⟩
  obtain ⟨block, p, hblock, hisBlock, -, hanc, hp, hname, -⟩ := hfound
  exact h.apart 2 block hblock hisBlock 0 (by rw [hanc]; decide) p hp hname

end Document

end Shortcode
