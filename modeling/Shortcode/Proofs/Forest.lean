import Mathlib.Data.List.Sort
import Shortcode.Proofs.Building
import Shortcode.Proofs.ScanOrder

/-!
# The forest of elements

The elements of a text form a forest: the whole of an element lies in the body of its parent, and
two elements lie apart or one in the other.  So the elements whose body contains a byte are a path
from the innermost one outwards.

    (d.idsWhere fun e => e.content.contains pos).reverse = m :: d.ancestors m
                                             for the innermost element m at pos (reverse_idsWhere)
-/

namespace Shortcode

namespace Document

/-- What makes a document over a text of length `hi` a forest of elements, whose end tags are tokens
of `markup`. -/
structure IsForest (hi : Nat) (markup : List Token) (d : Document) : Prop where
  startTag_lt : ∀ {id : ElementId} {e}, d.element? id = some e →
    e.startTag.start < e.startTag.stop
  /-- Start tags follow each other without overlap. -/
  startTag_le : ∀ {i j : ElementId} {ei ej}, i < j → d.element? i = some ei →
    d.element? j = some ej → ei.startTag.stop ≤ ej.startTag.start
  stop_bounds : ∀ {id : ElementId} {e}, d.element? id = some e →
    e.startTag.stop ≤ e.stop ∧ e.stop ≤ hi
  parent_lt : ∀ {id p : ElementId} {e}, d.element? id = some e → e.parent = some p → p < id
  /-- An element lies in the body of its parent. -/
  inParent : ∀ {id p : ElementId} {e}, d.element? id = some e → e.parent = some p →
    ∃ ep, d.element? p = some ep ∧ ep.content.start ≤ e.outer.start ∧
      e.outer.stop ≤ ep.content.stop
  /-- Of two elements, the later one lies in the earlier one or behind it. -/
  laminar : ∀ {i j : ElementId} {ei ej}, i < j → d.element? i = some ei →
    d.element? j = some ej →
    (ei.outer.start ≤ ej.outer.start ∧ ej.outer.stop ≤ ei.outer.stop) ∨
      ei.outer.stop ≤ ej.outer.start
  /-- An end tag belongs to an element of its name. -/
  endTag_mem : ∀ {id : ElementId} {e s}, d.element? id = some e → e.endTag = some s →
    .finish e.name s ∈ markup
  /-- An end tag belongs to one element. -/
  endTag_inj : ∀ {i j : ElementId} {ei ej s}, d.element? i = some ei → d.element? j = some ej →
    ei.endTag = some s → ej.endTag = some s → i = j

/-- The numbers of the elements of which `p` holds, in the order of their start tags. -/
def idsWhere (d : Document) (p : Element → Bool) : List ElementId := d.elements.findIdxs p

theorem mem_idsWhere {d : Document} {p : Element → Bool} {id : ElementId} :
    id ∈ d.idsWhere p ↔ ∃ e, d.element? id = some e ∧ p e = true := by
  simp [idsWhere, element?, List.getElem?_eq_some_iff]

theorem idsWhere_pairwise (d : Document) (p : Element → Bool) :
    (d.idsWhere p).Pairwise (· < ·) := List.pairwise_findIdxs

/-- Conditions may be asked one after the other. -/
theorem idsWhere_and (d : Document) (p q : Element → Bool) :
    d.idsWhere (fun e => p e && q e) =
      (d.idsWhere q).filter fun id => (d.element? id).any p := by
  apply (d.idsWhere_pairwise _).eq_of_mem_iff ((d.idsWhere_pairwise q).filter _)
  intro id
  rw [List.mem_filter, mem_idsWhere, mem_idsWhere]
  cases d.element? id with
  | none => simp
  | some e => simp [and_comm]

/-! ## The forest -/

theorem exists_element_of_lt {d : Document} {i j : ElementId} {e : Element}
    (he : d.element? j = some e) (hlt : i < j) : ∃ e, d.element? i = some e :=
  ⟨_, List.getElem?_eq_getElem (Nat.lt_trans hlt (List.getElem?_eq_some_iff.1 he).1)⟩

section

variable {hi : Nat} {markup : List Token} {d : Document}
  (h : Builder.Inv markup hi ⟨d.elements, []⟩)

include h

/-- An element lies in the bodies of its ancestors and behind the other elements before it. -/
theorem inBody_or_behind {i j : ElementId} {ei ej : Element} (hij : i < j)
    (hi : d.element? i = some ei) (hj : d.element? j = some ej) :
    (i ∈ d.ancestors j ∧ ej.stop ≤ ei.content.stop) ∨
      (i ∉ d.ancestors j ∧ ei.stop ≤ ej.startTag.start) := by
  cases h.lies hij hi hj with
  | inOpen _ ho => cases ho
  | inBody ha _ _ hle => exact .inl ⟨ha, hle⟩
  | behind ha _ hle => exact .inr ⟨ha, hle⟩

theorem startTag_stop_le {i j : ElementId} {ei ej : Element} (hij : i < j)
    (hi : d.element? i = some ei) (hj : d.element? j = some ej) :
    ei.startTag.stop ≤ ej.startTag.start := by
  obtain ⟨hil, hi⟩ := List.getElem?_eq_some_iff.1 hi
  obtain ⟨hjl, hj⟩ := List.getElem?_eq_some_iff.1 hj
  have hpair := List.pairwise_map.1 h.starts.pairwise
  exact hi ▸ hj ▸ List.pairwise_iff_getElem.1 hpair i j hil hjl hij

theorem isForest_of_inv : IsForest hi markup d where
  startTag_lt := fun he => (h.sound he).start_lt
  startTag_le := fun hij hi hj => startTag_stop_le h hij hi hj
  stop_bounds := fun he => ⟨(h.sound he).start_le_stop, h.closed he List.not_mem_nil⟩
  parent_lt := fun he hp => h.parent_lt he hp
  inParent := fun {id p e} he hp => by
    have hlt : p < id := h.parent_lt he hp
    have hmem : p ∈ d.ancestors id := by
      rw [ancestors_of_parent he hp hlt]
      exact List.mem_cons_self
    obtain ⟨ep, hep⟩ := exists_element_of_lt he hlt
    refine ⟨ep, hep, startTag_stop_le h hlt hep he, ?_⟩
    rcases inBody_or_behind h hlt hep he with ⟨_, hle⟩ | ⟨hn, _⟩
    · exact hle
    · exact absurd hmem hn
  laminar := fun {i j ei ej} hij hi hj => by
    have hstart := startTag_stop_le h hij hi hj
    have hlt := (h.sound hi).start_lt
    rcases inBody_or_behind h hij hi hj with ⟨_, hle⟩ | ⟨_, hle⟩
    · have hstop := (h.sound hi).content_stop_le
      refine .inl ⟨?_, Nat.le_trans hle hstop⟩
      show ei.startTag.start ≤ ej.startTag.start
      omega
    · exact .inr hle
  endTag_mem := fun he hs => h.endTag_mem he hs
  endTag_inj := fun hi hj his hjs => h.endTag_inj hi hj his hjs

end

/-- The builder at any time while it is given the tokens of a scanned text. -/
theorem inv_of_split {source : Text} {pairs : Text → Bool} {before after : List Token}
    (hsplit : (Scan.ofText source pairs).markup = before ++ after) :
    ∃ pos, Builder.Inv before pos (before.foldl (Builder.step source) .empty) ∧
      Span.InOrder source.length pos (after.map Token.span) := by
  have horder := Scan.tokens_inOrder source
  rw [Scan.markup_ofText] at hsplit
  rw [hsplit, List.map_append] at horder
  obtain ⟨pos, hbefore, hafter⟩ := Span.inOrder_append.1 horder
  exact ⟨pos, Builder.inv_foldl source Builder.inv_empty hbefore fun t ht =>
    (Scan.proper_of_mem_tokens (hsplit ▸ List.mem_append_left _ ht)).start_lt_stop, hafter⟩

/-- The builder has closed all elements of a scanned text. -/
theorem inv_ofText (source : Text) (pairs : Text → Bool) :
    Builder.Inv (Scan.ofText source pairs).markup source.length
      ⟨(ofMarkup source (Scan.ofText source pairs).markup).elements, []⟩ := by
  rw [Scan.markup_ofText]
  exact inv_ofMarkup source (Scan.tokens_inOrder source) fun t ht =>
    (Scan.proper_of_mem_tokens ht).start_lt_stop

/-! ## Bodies around a byte -/

theorem innermostFrom_eq_getLast? (pos : Nat) (id : ElementId) (es : List Element) :
    innermostFrom pos id es = (es.findIdxs (fun e => e.content.contains pos) id).getLast? := by
  induction es generalizing id with
  | nil => rfl
  | cons e rest ih =>
    rw [innermostFrom, ih, List.findIdxs_cons]
    generalize rest.findIdxs (fun e => e.content.contains pos) (id + 1) = inner
    split
    · rename_i last hlast
      split
      · rw [List.getLast?_cons, hlast, Option.getD_some]
      · exact hlast.symm
    · rename_i hlast
      rw [List.getLast?_eq_none_iff.1 hlast]
      split
      · rfl
      · rfl

/-- The innermost element at `pos` is the last one whose body contains it. -/
theorem innermostAt_eq_getLast? (d : Document) (pos : Nat) :
    d.innermostAt pos = (d.idsWhere fun e => e.content.contains pos).getLast? :=
  innermostFrom_eq_getLast? pos 0 d.elements

theorem le_of_getLast? {d : Document} {p : Element → Bool} {id m : ElementId}
    (hm : (d.idsWhere p).getLast? = some m) (hid : id ∈ d.idsWhere p) : id ≤ m := by
  obtain ⟨before, heq⟩ := List.getLast?_eq_some_iff.1 hm
  have hpair := d.idsWhere_pairwise p
  rw [heq] at hpair hid
  rcases List.mem_append.1 hid with hid | hid
  · exact Nat.le_of_lt ((List.pairwise_append.1 hpair).2.2 id hid m (List.mem_singleton_self m))
  · exact Nat.le_of_eq (List.mem_singleton.1 hid)

section

variable {hi : Nat} {markup : List Token} {d : Document}
  (h : Builder.Inv markup hi ⟨d.elements, []⟩)

include h

/-- The bodies around `pos` are those of the innermost element and its ancestors. -/
theorem mem_idsWhere_contains {pos : Nat} {id m : ElementId}
    (hm : d.innermostAt pos = some m) :
    id ∈ d.idsWhere (fun e => e.content.contains pos) ↔ id ∈ m :: d.ancestors m := by
  rw [innermostAt_eq_getLast?] at hm
  obtain ⟨em, hem, hpm⟩ := mem_idsWhere.1 (List.mem_of_getLast? hm)
  obtain ⟨hstart, hstop⟩ := Span.contains_iff.1 hpm
  have hsound := h.sound hem
  have hcontent := hsound.content_stop_le
  rw [mem_idsWhere, List.mem_cons]
  constructor
  · rintro ⟨e, he, hp⟩
    rcases Nat.lt_or_eq_of_le (le_of_getLast? hm (mem_idsWhere.2 ⟨e, he, hp⟩)) with hlt | rfl
    · rcases inBody_or_behind h hlt he hem with ⟨ha, _⟩ | ⟨_, hle⟩
      · exact .inr ha
      · -- behind the end of its body, `m` does not reach back to `pos`
        have hend := (h.sound he).content_stop_le
        have hpos := (Span.contains_iff.1 hp).2
        have hlt := hsound.start_lt
        have hm : em.startTag.stop ≤ pos := hstart
        omega
    · exact .inl rfl
  · rintro (rfl | ha)
    · exact ⟨em, hem, hpm⟩
    · have hlt := lt_of_mem_ancestors ha
      obtain ⟨e, he⟩ := exists_element_of_lt hem hlt
      rcases inBody_or_behind h hlt he hem with ⟨_, hle⟩ | ⟨hn, _⟩
      · have hfirst := startTag_stop_le h hlt he hem
        have hm : em.startTag.stop ≤ pos := hstart
        have hlt := hsound.start_lt
        refine ⟨e, he, Span.contains_iff.2 ⟨?_, Nat.lt_of_lt_of_le hstop ?_⟩⟩
        · show e.startTag.stop ≤ pos
          omega
        · omega
      · exact absurd ha hn

theorem reverse_idsWhere {pos : Nat} {m : ElementId} (hm : d.innermostAt pos = some m) :
    (d.idsWhere fun e => e.content.contains pos).reverse = m :: d.ancestors m := by
  have hdesc : (d.idsWhere fun e => e.content.contains pos).reverse.Pairwise (· > ·) :=
    List.pairwise_reverse.2 (d.idsWhere_pairwise _)
  apply hdesc.eq_of_mem_iff (d.isPath_ancestors m).pairwise
  intro id
  rw [List.mem_reverse]
  exact mem_idsWhere_contains h hm

theorem enclosingBlock_eq_getLast? (pos : Nat) : d.enclosingBlock pos =
    (d.idsWhere fun e => e.isBlock && e.content.contains pos).getLast? := by
  rw [idsWhere_and, List.getLast?_filter, enclosingBlock]
  cases hm : d.innermostAt pos with
  | none =>
    rw [innermostAt_eq_getLast?, List.getLast?_eq_none_iff] at hm
    rw [hm]
    rfl
  | some m =>
    rw [reverse_idsWhere h hm]
    rfl

end

/-- **The elements of a text are a forest.**  So the bodies around a byte are those of the innermost
element there and its ancestors, and the nearest block is the last one opened of them. -/
theorem isForest_ofText (source : Text) (pairs : Text → Bool) :
    let scan := Scan.ofText source pairs
    let d := ofMarkup source scan.markup
    d.IsForest source.length scan.markup ∧ ∀ pos,
      (∀ id, id ∈ d.idsWhere (fun e => e.content.contains pos) ↔
        ∃ m, d.innermostAt pos = some m ∧ id ∈ m :: d.ancestors m) ∧
      d.enclosingBlock pos =
        (d.idsWhere fun e => e.isBlock && e.content.contains pos).getLast? := by
  intro scan d
  have h := inv_ofText source pairs
  refine ⟨isForest_of_inv h, fun pos => ⟨fun id => ?_, enclosingBlock_eq_getLast? h pos⟩⟩
  constructor
  · intro hid
    cases hm : d.innermostAt pos with
    | none =>
      rw [innermostAt_eq_getLast?, List.getLast?_eq_none_iff] at hm
      exact absurd hid (hm ▸ List.not_mem_nil)
    | some m => exact ⟨m, rfl, (mem_idsWhere_contains h hm).1 hid⟩
  · rintro ⟨m, hm, hid⟩
    exact (mem_idsWhere_contains h hm).2 hid

end Document

end Shortcode
