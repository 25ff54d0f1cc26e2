import Shortcode.Proofs.ElementPaths
import Shortcode.Proofs.TokenOrder

/-!
# Building the elements of a document

`Builder.Inv before pos b` holds of a builder that has seen the tokens `before`, all of which end by
`pos`.  The open elements form a path; each closed element has ended by `pos`; and an element lies
either in the body of an earlier one, if that is one of its ancestors, or behind it.

    Inv before pos b → pos ≤ t.span.start → Inv (before ++ [t]) t.span.stop (b.step source t)
                                                                            (inv_step)
-/

namespace Shortcode

/-- What holds of an element at any time. -/
structure Element.Sound (e : Element) : Prop where
  start_lt : e.startTag.start < e.startTag.stop
  start_le_stop : e.startTag.stop ≤ e.stop
  endTag_bounds : ∀ s, e.endTag = some s → e.startTag.stop ≤ s.start ∧ s.start < s.stop ∧
    e.stop = s.stop

namespace Element

theorem content_stop_of_endTag {e : Element} {s : Span} (h : e.endTag = some s)
    (hle : e.startTag.stop ≤ s.start) : e.content.stop = s.start := by
  unfold content
  rw [h]
  exact Nat.max_eq_left hle

theorem content_stop_of_none {e : Element} (h : e.endTag = none)
    (hle : e.startTag.stop ≤ e.stop) : e.content.stop = e.stop := by
  unfold content
  rw [h]
  exact Nat.max_eq_left hle

theorem Sound.content_stop_le {e : Element} (h : e.Sound) : e.content.stop ≤ e.stop := by
  cases ht : e.endTag with
  | none => exact Nat.le_of_eq (content_stop_of_none ht h.start_le_stop)
  | some s =>
    obtain ⟨h1, h2, h3⟩ := h.endTag_bounds s ht
    rw [content_stop_of_endTag ht h1, h3]
    omega

end Element

namespace Document

namespace Builder

/-- The numbers of the open elements, innermost first. -/
def openIds (b : Builder) : List ElementId := b.stack.map (·.id)

/-- The elements found so far. -/
def document (b : Builder) : Document := ⟨b.elements⟩

/-- How element `j` lies to the earlier element `i`. -/
inductive Lies (b : Builder) (i j : ElementId) (ei ej : Element) : Prop
  /-- It stands in an element that is still open. -/
  | inOpen : i ∈ b.document.ancestors j → i ∈ b.openIds → Lies b i j ei ej
  /-- It has ended in the body of a closed element. -/
  | inBody : i ∈ b.document.ancestors j → i ∉ b.openIds → j ∉ b.openIds →
      ej.stop ≤ ei.content.stop → Lies b i j ei ej
  | behind : i ∉ b.document.ancestors j → i ∉ b.openIds → ei.stop ≤ ej.startTag.start →
      Lies b i j ei ej

/-- What holds of a builder that has seen the tokens `before`, which end by `pos`. -/
structure Inv (before : List Token) (pos : Nat) (b : Builder) : Prop where
  path : b.document.IsPath b.openIds
  opened : ∀ o ∈ b.stack, ∃ e, b.elements[o.id]? = some e ∧ e.name = o.name ∧ e.endTag = none
  starts : Span.InOrder pos 0 (b.elements.map (·.startTag))
  sound : ∀ {i : Nat} {e}, b.elements[i]? = some e → e.Sound
  closed : ∀ {i : Nat} {e}, b.elements[i]? = some e → i ∉ b.openIds → e.stop ≤ pos
  lies : ∀ {i j : Nat} {ei ej}, i < j → b.elements[i]? = some ei → b.elements[j]? = some ej →
    b.Lies i j ei ej
  parent_lt : ∀ {i : Nat} {e p}, b.elements[i]? = some e → e.parent = some p → p < i
  endTag_mem : ∀ {i : Nat} {e s}, b.elements[i]? = some e → e.endTag = some s →
    .finish e.name s ∈ before
  endTag_inj : ∀ {i j : Nat} {ei ej s}, b.elements[i]? = some ei → b.elements[j]? = some ej →
    ei.endTag = some s → ej.endTag = some s → i = j

theorem inv_empty : Inv [] 0 empty where
  path := trivial
  opened := nofun
  starts := Nat.le_refl 0
  sound := nofun
  closed := nofun
  lies := nofun
  parent_lt := nofun
  endTag_mem := nofun
  endTag_inj := nofun

theorem Inv.mono {before after : List Token} {pos pos' : Nat} {b : Builder}
    (h : Inv before pos b) (hpos : pos ≤ pos') (hsub : before ⊆ after) : Inv after pos' b where
  path := h.path
  opened := h.opened
  starts := h.starts.mono_right hpos
  sound := h.sound
  closed := fun he ho => Nat.le_trans (h.closed he ho) hpos
  lies := h.lies
  parent_lt := h.parent_lt
  endTag_mem := fun he hs => hsub (h.endTag_mem he hs)
  endTag_inj := h.endTag_inj

/-! ## Ending an element -/

/-- How an open element ends: at `pos` without an end tag, or at an end tag after `pos`. -/
inductive Ends (before : List Token) (pos pos' : Nat) (e : Element) : Element → Prop
  | implied : Ends before pos pos' e { e with stop := pos }
  | tagged (s : Span) : pos ≤ s.start → s.start < s.stop → s.stop ≤ pos' →
      .finish e.name s ∈ before →
      Ends before pos pos' e { e with endTag := some s, stop := s.stop }

section

variable {before : List Token} {pos pos' : Nat} {e e' : Element}

theorem Ends.name_eq (h : Ends before pos pos' e e') : e'.name = e.name := by
  cases h <;> rfl

theorem Ends.startTag_eq (h : Ends before pos pos' e e') : e'.startTag = e.startTag := by
  cases h <;> rfl

theorem Ends.parent_eq (h : Ends before pos pos' e e') : e'.parent = e.parent := by
  cases h <;> rfl

theorem Ends.stop_le (h : Ends before pos pos' e e') (hpos : pos ≤ pos') : e'.stop ≤ pos' := by
  cases h with
  | implied => exact hpos
  | tagged s _ _ hle _ => exact hle

theorem Ends.le_content_stop (h : Ends before pos pos' e e') (ho : e.endTag = none)
    (hle : e.startTag.stop ≤ pos) : pos ≤ e'.content.stop := by
  cases h with
  | implied =>
    have hstop := Element.content_stop_of_none (e := { e with stop := pos }) ho hle
    exact Nat.le_of_eq hstop.symm
  | tagged s hs _ _ _ =>
    have hstop := Element.content_stop_of_endTag
      (e := { e with endTag := some s, stop := s.stop }) rfl (Nat.le_trans hle hs)
    omega

theorem Ends.endTag_bounds (h : Ends before pos pos' e e') (ho : e.endTag = none) {s : Span}
    (hs : e'.endTag = some s) :
    pos ≤ s.start ∧ s.start < s.stop ∧ e'.stop = s.stop ∧ .finish e.name s ∈ before := by
  cases h with
  | implied => exact nomatch ho.symm.trans hs
  | tagged s' h1 h2 _ h4 =>
    cases hs
    exact ⟨h1, h2, rfl, h4⟩

theorem Ends.sound (h : Ends before pos pos' e e') (ho : e.endTag = none) (he : e.Sound)
    (hle : e.startTag.stop ≤ pos) : e'.Sound where
  start_lt := h.startTag_eq ▸ he.start_lt
  start_le_stop := by
    cases h with
    | implied => exact hle
    | tagged s h1 h2 _ _ =>
      show e.startTag.stop ≤ s.stop
      omega
  endTag_bounds := fun s hs => by
    obtain ⟨h1, h2, h3, _⟩ := h.endTag_bounds ho hs
    rw [h.startTag_eq]
    exact ⟨Nat.le_trans hle h1, h2, h3⟩

end

/-! ### The innermost one -/

theorem getElem?_modify_cases {es : List Element} {f : Element → Element} {k i : Nat}
    {e' : Element} (h : (es.modify k f)[i]? = some e') :
    (i = k ∧ ∃ e, es[k]? = some e ∧ e' = f e) ∨ (i ≠ k ∧ es[i]? = some e') := by
  by_cases hi : k = i
  · subst hi
    rw [List.getElem?_modify_eq] at h
    obtain ⟨e, he, rfl⟩ := Option.map_eq_some_iff.1 h
    exact .inl ⟨rfl, e, he, rfl⟩
  · rw [List.getElem?_modify_ne f es hi] at h
    exact .inr ⟨fun h => hi h.symm, h⟩

/-- What a change keeps of one element it keeps of all. -/
theorem map_modify_eq {α : Type} {es : List Element} {k : Nat} {f : Element → Element}
    (g : Element → α) (hf : ∀ e, es[k]? = some e → g (f e) = g e) :
    (es.modify k f).map g = es.map g := by
  refine List.ext_getElem? fun i => ?_
  rw [List.getElem?_map, List.getElem?_map]
  by_cases hi : k = i
  · subst hi
    rw [List.getElem?_modify_eq]
    cases he : es[k]? with
    | none => rfl
    | some e => exact congrArg some (hf e he)
  · rw [List.getElem?_modify_ne f es hi]

theorem ancestors_eq_of_parents {es es' : List Element} {i : ElementId}
    (h : ∀ k ≤ i, es[k]?.map (·.parent) = es'[k]?.map (·.parent)) :
    ancestors ⟨es⟩ i = ancestors ⟨es'⟩ i := by
  apply ancestors_congr
  intro k hk
  calc es[k]?.bind (·.parent) = (es[k]?.map (·.parent)).bind id := by rw [Option.bind_map]; rfl
    _ = (es'[k]?.map (·.parent)).bind id := by rw [h k hk]
    _ = es'[k]?.bind (·.parent) := by rw [Option.bind_map]; rfl

/-- An element with an end tag is closed. -/
theorem Inv.endTag_stop_le {before : List Token} {pos : Nat} {b : Builder}
    (h : Inv before pos b) {i : Nat} {e : Element} (he : b.elements[i]? = some e) {s : Span}
    (hs : e.endTag = some s) : s.stop ≤ pos := by
  rw [← ((h.sound he).endTag_bounds s hs).2.2]
  apply h.closed he
  intro hi
  obtain ⟨o, ho, rfl⟩ := List.mem_map.1 hi
  obtain ⟨e', he', _, ht⟩ := h.opened o ho
  cases he.symm.trans he'
  exact nomatch ht.symm.trans hs

section

variable {before : List Token} {pos pos' : Nat} {es : List Element} {o : OpenElement}
  {outer : List OpenElement} {f : Element → Element}

theorem Inv.lt_of_mem_outer (h : Inv before pos ⟨es, o :: outer⟩) {i : ElementId}
    (hi : i ∈ outer.map (·.id)) : i < o.id := (List.pairwise_cons.1 h.path.pairwise).1 i hi

theorem Inv.notMem_outer (h : Inv before pos ⟨es, o :: outer⟩) {j : ElementId}
    (hj : o.id ≤ j) : j ∉ outer.map (·.id) :=
  fun hmem => Nat.lt_irrefl _ (Nat.lt_of_lt_of_le (h.lt_of_mem_outer hmem) hj)

theorem Inv.notMem_openIds (h : Inv before pos ⟨es, o :: outer⟩) {j : ElementId}
    (hj : o.id < j) : j ∉ openIds ⟨es, o :: outer⟩ := by
  intro hmem
  rcases List.mem_cons.1 hmem with rfl | hmem
  · exact Nat.lt_irrefl _ hj
  · exact h.notMem_outer (Nat.le_of_lt hj) hmem

theorem Inv.of_top (h : Inv before pos ⟨es, o :: outer⟩) {e : Element}
    (he : es[o.id]? = some e) : e.endTag = none ∧ e.startTag.stop ≤ pos := by
  obtain ⟨e', he', _, ht⟩ := h.opened o List.mem_cons_self
  cases he.symm.trans he'
  exact ⟨ht, (h.starts.bounds (List.mem_map_of_mem (List.mem_of_getElem? he))).2.2⟩

theorem ancestors_modify (hf : ∀ e, es[o.id]? = some e → Ends before pos pos' e (f e))
    (i : ElementId) : ancestors ⟨es.modify o.id f⟩ i = ancestors ⟨es⟩ i := by
  apply ancestors_eq_of_parents
  intro k _
  rw [← List.getElem?_map, ← List.getElem?_map,
    map_modify_eq (·.parent) fun e he => (hf e he).parent_eq]

theorem Inv.lies_close (h : Inv before pos ⟨es, o :: outer⟩)
    (hf : ∀ e, es[o.id]? = some e → Ends before pos pos' e (f e)) {i j : Nat}
    {ei ej : Element} (hij : i < j) (hi : (es.modify o.id f)[i]? = some ei)
    (hj : (es.modify o.id f)[j]? = some ej) :
    Lies ⟨es.modify o.id f, outer⟩ i j ei ej := by
  have hanc : i ∈ ancestors ⟨es.modify o.id f⟩ j ↔ i ∈ ancestors ⟨es⟩ j := by
    rw [ancestors_modify hf]
  rcases getElem?_modify_cases hi with ⟨rfl, e, he, rfl⟩ | ⟨hne, he⟩
  · -- everything after the element that ends here is closed, and inside it
    rcases getElem?_modify_cases hj with ⟨rfl, _⟩ | ⟨_, hej⟩
    · omega
    · have hjo := h.notMem_openIds hij
      have hstop := h.closed hej hjo
      have hcontent := (hf e he).le_content_stop (h.of_top he).1 (h.of_top he).2
      have hout := h.notMem_outer (Nat.le_refl _)
      cases h.lies hij he hej with
      | inOpen ha _ =>
        exact .inBody (hanc.2 ha) hout (h.notMem_outer (Nat.le_of_lt hij))
          (Nat.le_trans hstop hcontent)
      | inBody _ hio _ _ => exact absurd List.mem_cons_self hio
      | behind _ hio _ => exact absurd List.mem_cons_self hio
  · -- the element that ends here may stand in element `i` or behind it
    have hout : ∀ {k}, k ∉ openIds ⟨es, o :: outer⟩ → k ∉ outer.map (·.id) :=
      fun hk hmem => hk (List.mem_cons_of_mem _ hmem)
    obtain ⟨e, hej, hstart, heq⟩ : ∃ e, es[j]? = some e ∧ ej.startTag = e.startTag ∧
        (j ∉ openIds ⟨es, o :: outer⟩ → ej = e) := by
      rcases getElem?_modify_cases hj with ⟨rfl, e, hej, rfl⟩ | ⟨_, hej⟩
      · exact ⟨e, hej, (hf e hej).startTag_eq, fun hjo => absurd List.mem_cons_self hjo⟩
      · exact ⟨ej, hej, rfl, fun _ => rfl⟩
    cases h.lies hij he hej with
    | inOpen ha hio => exact .inOpen (hanc.2 ha) ((List.mem_cons.1 hio).resolve_left hne)
    | inBody ha hio hjo hle => exact .inBody (hanc.2 ha) (hout hio) (hout hjo) (heq hjo ▸ hle)
    | behind ha hio hle => exact .behind (mt hanc.1 ha) (hout hio) (hstart ▸ hle)

/-- Ending the innermost open element keeps the invariant. -/
theorem Inv.close (h : Inv before pos ⟨es, o :: outer⟩) (hpos : pos ≤ pos')
    (hf : ∀ e, es[o.id]? = some e → Ends before pos pos' e (f e)) :
    Inv before pos' ⟨es.modify o.id f, outer⟩ := by
  constructor
  · exact h.path.tail.congr fun i _ => (ancestors_modify hf i).symm
  · intro p hp
    obtain ⟨e, he, hn, ht⟩ := h.opened p (List.mem_cons_of_mem _ hp)
    have hlt := h.lt_of_mem_outer (List.mem_map_of_mem hp)
    exact ⟨e, (List.getElem?_modify_ne f es (Nat.ne_of_gt hlt)).trans he, hn, ht⟩
  · rw [map_modify_eq (·.startTag) fun e he => (hf e he).startTag_eq]
    exact h.starts.mono_right hpos
  · intro i e' he'
    rcases getElem?_modify_cases he' with ⟨rfl, e, he, rfl⟩ | ⟨_, he⟩
    · exact (hf e he).sound (h.of_top he).1 (h.sound he) (h.of_top he).2
    · exact h.sound he
  · intro i e' he' hi
    rcases getElem?_modify_cases he' with ⟨rfl, e, he, rfl⟩ | ⟨hne, he⟩
    · exact (hf e he).stop_le hpos
    · have hstop := h.closed he fun hmem => (List.mem_cons.1 hmem).elim hne hi
      omega
  · exact fun hij hi hj => h.lies_close hf hij hi hj
  · intro i e' p he' hp
    rcases getElem?_modify_cases he' with ⟨rfl, e, he, rfl⟩ | ⟨_, he⟩
    · exact h.parent_lt he ((hf e he).parent_eq ▸ hp)
    · exact h.parent_lt he hp
  · intro i e' s he' hs
    rcases getElem?_modify_cases he' with ⟨rfl, e, he, rfl⟩ | ⟨_, he⟩
    · rw [(hf e he).name_eq]
      exact ((hf e he).endTag_bounds (h.of_top he).1 hs).2.2.2
    · exact h.endTag_mem he hs
  · -- a new end tag stands behind those of the elements closed before
    have hnew : ∀ {i : Nat} {e e' : Element} {s : Span}, es[o.id]? = some e →
        (f e).endTag = some s → es[i]? = some e' → e'.endTag ≠ some s := by
      intro i e e' s he hs he' hs'
      obtain ⟨h1, h2, _⟩ := (hf e he).endTag_bounds (h.of_top he).1 hs
      have := h.endTag_stop_le he' hs'
      omega
    intro i j ei ej s hi hj his hjs
    rcases getElem?_modify_cases hi with ⟨rfl, e, he, rfl⟩ | ⟨_, he⟩
    · rcases getElem?_modify_cases hj with ⟨rfl, _⟩ | ⟨_, he'⟩
      · rfl
      · exact absurd hjs (hnew he his he')
    · rcases getElem?_modify_cases hj with ⟨rfl, e', he', rfl⟩ | ⟨_, he'⟩
      · exact absurd his (hnew he' hjs he)
      · exact h.endTag_inj he he' his hjs

end

/-! ### Several -/

theorem Inv.endAt {before : List Token} {pos : Nat} {es : List Element}
    {top outer : List OpenElement} (h : Inv before pos ⟨es, top ++ outer⟩) :
    Inv before pos ⟨endAt pos top es, outer⟩ := by
  induction top generalizing es with
  | nil => exact h
  | cons o top ih => exact ih (h.close (Nat.le_refl pos) fun _ _ => .implied)

theorem Inv.endParagraph {before : List Token} {b : Builder} {tag : StartTag}
    (h : Inv before tag.span.start b) : Inv before tag.span.start (b.endParagraph tag) := by
  obtain ⟨es, stack⟩ := b
  cases stack with
  | nil => exact h
  | cons o outer =>
    simp only [Builder.endParagraph]
    split
    · have h : Inv before tag.span.start ⟨es, [o] ++ outer⟩ := h
      exact h.endAt
    · exact h

theorem Inv.finish {before : List Token} {b : Builder} {name : Text} {span : Span}
    (h : Inv before span.start b) (hspan : span.start < span.stop) :
    Inv (before ++ [.finish name span]) span.stop (b.finish name span) := by
  obtain ⟨es, stack⟩ := b
  have hsub : before ⊆ before ++ [.finish name span] := List.subset_append_left _ _
  have hsplit : stack.takeWhile (·.name != name) ++ stack.dropWhile (·.name != name) = stack :=
    List.takeWhile_append_dropWhile
  have hname := List.head?_dropWhile_not (fun o : OpenElement => o.name != name) stack
  rw [Builder.finish]
  split
  · exact h.mono (Nat.le_of_lt hspan) hsub
  · rename_i o outer hdrop
    rw [hdrop] at hsplit hname
    rw [← hsplit] at h
    have htop := h.endAt.mono (Nat.le_refl _) hsub
    apply htop.close (Nat.le_of_lt hspan)
    intro e he
    obtain ⟨e', he', hn, _⟩ := htop.opened o List.mem_cons_self
    cases he.symm.trans he'
    refine .tagged span (Nat.le_refl _) hspan (Nat.le_refl _) (List.mem_append_right _ ?_)
    rw [hn, show o.name = name by simpa using hname]
    exact List.mem_singleton_self _

/-! ## Opening an element -/

theorem getElem?_append_cases {es : List Element} {e e' : Element} {i : Nat}
    (h : (es ++ [e])[i]? = some e') :
    (i = es.length ∧ e' = e) ∨ (i < es.length ∧ es[i]? = some e') := by
  by_cases hi : i < es.length
  · rw [List.getElem?_append_left hi] at h
    exact .inr ⟨hi, h⟩
  · obtain ⟨h1, h2⟩ := List.getElem?_eq_some_iff.1 h
    have hlen : i = es.length := by
      rw [List.length_append, List.length_singleton] at h1
      omega
    subst hlen
    rw [List.getElem?_concat_length] at h
    exact .inl ⟨rfl, (Option.some.inj h).symm⟩

theorem ancestors_append {es : List Element} {e : Element} {i : ElementId}
    (hi : i < es.length) : ancestors ⟨es ++ [e]⟩ i = ancestors ⟨es⟩ i :=
  ancestors_eq_of_parents fun k hk => by
    rw [List.getElem?_append_left (Nat.lt_of_le_of_lt hk hi)]

section

variable {before : List Token} {pos : Nat} {es : List Element} {stack : List OpenElement}
  {e : Element}

theorem Inv.lt_length (h : Inv before pos ⟨es, stack⟩) {i : ElementId}
    (hi : i ∈ stack.map (·.id)) : i < es.length := by
  obtain ⟨o, ho, rfl⟩ := List.mem_map.1 hi
  obtain ⟨e, he, _⟩ := h.opened o ho
  exact (List.getElem?_eq_some_iff.1 he).1

/-- A new element stands in the open elements. -/
theorem Inv.ancestors_new (h : Inv before pos ⟨es, stack⟩)
    (hparent : e.parent = stack.head?.map (·.id)) :
    ancestors ⟨es ++ [e]⟩ es.length = stack.map (·.id) := by
  have he : Document.element? ⟨es ++ [e]⟩ es.length = some e := List.getElem?_concat_length
  cases stack with
  | nil => exact ancestors_of_root he hparent
  | cons o outer =>
    have hlt : o.id < es.length := h.lt_length List.mem_cons_self
    rw [ancestors_of_parent he hparent hlt, ancestors_append hlt]
    exact congrArg (o.id :: ·) h.path

/-- A new element without a body keeps the invariant. -/
theorem Inv.add (h : Inv before pos ⟨es, stack⟩) (hpos : pos ≤ e.startTag.start)
    (hspan : e.startTag.start < e.startTag.stop) (hend : e.endTag = none)
    (hstop : e.stop = e.startTag.stop) (hparent : e.parent = stack.head?.map (·.id)) :
    Inv before e.stop ⟨es ++ [e], stack⟩ := by
  have hle : pos ≤ e.stop := by omega
  have hnew := h.ancestors_new hparent
  constructor
  · exact h.path.congr fun i hi => (ancestors_append (h.lt_length hi)).symm
  · intro o ho
    obtain ⟨e', he', hn⟩ := h.opened o ho
    exact ⟨e', (List.getElem?_append_left (List.getElem?_eq_some_iff.1 he').1).trans he', hn⟩
  · show Span.InOrder e.stop 0 ((es ++ [e]).map (·.startTag))
    rw [List.map_append]
    exact h.starts.append ⟨hpos, Nat.le_of_lt hspan, Nat.le_of_eq hstop.symm⟩
  · intro i e' he'
    rcases getElem?_append_cases he' with ⟨rfl, rfl⟩ | ⟨_, he⟩
    · exact ⟨hspan, Nat.le_of_eq hstop.symm, fun s hs => nomatch hend.symm.trans hs⟩
    · exact h.sound he
  · intro i e' he' hi
    rcases getElem?_append_cases he' with ⟨rfl, rfl⟩ | ⟨_, he⟩
    · omega
    · exact Nat.le_trans (h.closed he hi) hle
  · intro i j ei ej hij hi hj
    rcases getElem?_append_cases hj with ⟨rfl, rfl⟩ | ⟨hlt, hej⟩
    · rcases getElem?_append_cases hi with ⟨rfl, _⟩ | ⟨_, hei⟩
      · omega
      · by_cases hio : i ∈ stack.map (·.id)
        · exact .inOpen (hnew ▸ hio) hio
        · exact .behind (hnew ▸ hio) hio (Nat.le_trans (h.closed hei hio) hpos)
    · rcases getElem?_append_cases hi with ⟨rfl, _⟩ | ⟨_, hei⟩
      · omega
      · have hanc : ancestors ⟨es ++ [e]⟩ j = ancestors ⟨es⟩ j := ancestors_append hlt
        cases h.lies hij hei hej with
        | inOpen ha hio => exact .inOpen (hanc ▸ ha) hio
        | inBody ha hio hjo hle => exact .inBody (hanc ▸ ha) hio hjo hle
        | behind ha hio hle => exact .behind (hanc ▸ ha) hio hle
  · intro i e' p he' hp
    rcases getElem?_append_cases he' with ⟨rfl, rfl⟩ | ⟨_, he⟩
    · rw [hparent] at hp
      obtain ⟨o, ho, rfl⟩ := Option.map_eq_some_iff.1 hp
      exact h.lt_length (List.mem_map_of_mem (List.mem_of_mem_head? ho))
    · exact h.parent_lt he hp
  · intro i e' s he' hs
    rcases getElem?_append_cases he' with ⟨rfl, rfl⟩ | ⟨_, he⟩
    · exact nomatch hend.symm.trans hs
    · exact h.endTag_mem he hs
  · intro i j ei ej s hi hj his hjs
    rcases getElem?_append_cases hi with ⟨rfl, rfl⟩ | ⟨_, hei⟩
    · exact nomatch hend.symm.trans his
    · rcases getElem?_append_cases hj with ⟨rfl, rfl⟩ | ⟨_, hej⟩
      · exact nomatch hend.symm.trans hjs
      · exact h.endTag_inj hei hej his hjs

/-- Keeping the last element open keeps the invariant. -/
theorem Inv.push {id : ElementId} (h : Inv before pos ⟨es, stack⟩) (he : es[id]? = some e)
    (hlast : es.length = id + 1) (hend : e.endTag = none)
    (hanc : ancestors ⟨es⟩ id = stack.map (·.id)) :
    Inv before pos ⟨es, ⟨id, e.name⟩ :: stack⟩ where
  path := hanc
  opened := fun o ho => by
    rcases List.mem_cons.1 ho with rfl | ho
    · exact ⟨e, he, rfl, hend⟩
    · exact h.opened o ho
  starts := h.starts
  sound := h.sound
  closed := fun he ho => h.closed he fun hmem => ho (List.mem_cons_of_mem _ hmem)
  lies := fun {i j ei ej} hij hi hj => by
    have hlt : i < id := by
      have hj' : j < es.length := (List.getElem?_eq_some_iff.1 hj).1
      omega
    have hout : ∀ {k}, k ≠ id → k ∉ stack.map (·.id) → k ∉ id :: stack.map (·.id) :=
      fun hne hk hmem => (List.mem_cons.1 hmem).elim hne hk
    cases h.lies hij hi hj with
    | inOpen ha hio => exact .inOpen ha (List.mem_cons_of_mem _ hio)
    | inBody ha hio hjo hle =>
      refine .inBody ha (hout (Nat.ne_of_lt hlt) hio) (hout (fun hjid => ?_) hjo) hle
      subst hjid
      exact hio (show i ∈ stack.map (·.id) from hanc ▸ ha)
    | behind ha hio hle => exact .behind ha (hout (Nat.ne_of_lt hlt) hio) hle
  parent_lt := h.parent_lt
  endTag_mem := h.endTag_mem
  endTag_inj := h.endTag_inj

end

theorem Inv.start {before : List Token} {b : Builder} {tag : StartTag} (source : Text)
    (h : Inv before tag.span.start b) (hspan : tag.span.start < tag.span.stop) :
    Inv before tag.span.stop (b.start source tag) := by
  have hpar := h.endParagraph
  rw [Builder.start]
  generalize b.endParagraph tag = b at hpar
  obtain ⟨es, stack⟩ := b
  have hadd := hpar.add (e := elementOf source tag (stack.head?.map (·.id))) (Nat.le_refl _)
    hspan rfl rfl rfl
  split
  · exact hadd
  · exact hadd.push List.getElem?_concat_length List.length_append rfl
      (hpar.ancestors_new rfl)

/-! ## Runs -/

/-- One token keeps the invariant. -/
theorem inv_step {before : List Token} {pos : Nat} {b : Builder} {t : Token} (source : Text)
    (h : Inv before pos b) (hpos : pos ≤ t.span.start) (hspan : t.span.start < t.span.stop) :
    Inv (before ++ [t]) t.span.stop (b.step source t) := by
  have hsub : before ⊆ before ++ [t] := List.subset_append_left _ _
  have hstart : Inv before t.span.start b := h.mono hpos (List.Subset.refl _)
  cases t with
  | start tag => exact (hstart.start source hspan).mono (Nat.le_refl _) hsub
  | finish name span => exact hstart.finish hspan
  | opaqueText span => exact hstart.mono (Nat.le_of_lt hspan) hsub

theorem inv_foldl (source : Text) {tokens before : List Token} {pos stop : Nat} {b : Builder}
    (h : Inv before pos b) (hord : Span.InOrder stop pos (tokens.map Token.span))
    (hspan : ∀ t ∈ tokens, t.span.start < t.span.stop) :
    Inv (before ++ tokens) stop (tokens.foldl (step source) b) := by
  induction tokens generalizing before pos b with
  | nil => exact (List.append_nil before).symm ▸ h.mono hord (List.Subset.refl _)
  | cons t rest ih =>
    have hstep := inv_step source h hord.1 (hspan t List.mem_cons_self)
    have hrest := ih hstep hord.2.2 fun t ht => hspan t (List.mem_cons_of_mem _ ht)
    rw [List.append_assoc] at hrest
    exact hrest

end Builder

/-- The elements of a text and its tokens, once those still open have ended with the text. -/
theorem inv_ofMarkup (source : Text) {markup : List Token}
    (hord : Span.InOrder source.length 0 (markup.map Token.span))
    (hspan : ∀ t ∈ markup, t.span.start < t.span.stop) :
    Builder.Inv markup source.length ⟨(ofMarkup source markup).elements, []⟩ := by
  have h := Builder.inv_foldl source Builder.inv_empty hord hspan
  have hstack : ∀ b : Builder, b = ⟨b.elements, b.stack ++ []⟩ := fun b => by
    rw [List.append_nil]
  rw [hstack (markup.foldl _ _)] at h
  exact h.endAt

end Document

end Shortcode
