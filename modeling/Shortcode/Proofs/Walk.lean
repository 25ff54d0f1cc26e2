import Mathlib.Data.List.Sort
import Shortcode.Proofs.SpanOrder

/-!
# Walking through a text

A `Slot` is the place of a tag in a text, with what is to be written for it.  `Slot.walk` goes
through the text once.  At each offset it writes first the texts moved there, in the order of their
tags, and then either the text of the tag that starts there, going on behind the tag, or the byte.

    (walk slots hi 0).filterMap Emission.byte? = the offsets outside all slots  (bytes_walk)
    (walk slots hi 0).filterMap Emission.text? ~ List.range slots.length        (texts_walk)
-/

namespace Shortcode

/-- The place of a tag, the text for it and where that text is moved to. -/
structure Slot where
  span : Span
  text : Text
  anchor : Option Nat

/-- One thing that is written. -/
inductive Emission where
  /-- The byte of the source at an offset. -/
  | byte (pos : Nat)
  /-- The text of the slot with a number. -/
  | text (i : Nat)
  deriving DecidableEq

namespace Emission

def byte? : Emission → Option Nat
  | .byte pos => some pos
  | .text _ => none

def text? : Emission → Option Nat
  | .byte _ => none
  | .text i => some i

def write (source : Text) (slots : List Slot) : Emission → Text
  | .byte pos => source[pos]?.toList
  | .text i => (slots[i]?.map (·.text)).getD []

@[simp] theorem filterMap_byte?_text (is : List Nat) :
    (is.map Emission.text).filterMap byte? = [] := by
  rw [List.filterMap_map]
  exact List.filterMap_eq_nil_iff.2 fun _ _ => rfl

@[simp] theorem filterMap_text?_text (is : List Nat) :
    (is.map Emission.text).filterMap text? = is := by
  rw [List.filterMap_map]
  exact List.filterMap_some

end Emission

namespace Slot

/-! ## The walk -/

/-- The slots whose text is moved to `pos`, in order. -/
def movedTo (slots : List Slot) (pos : Nat) : List Nat :=
  slots.findIdxs fun s => s.anchor == some pos

/-- The slot that starts at `pos`, with its number. -/
def startingAt? (slots : List Slot) (pos : Nat) : Option (Slot × Nat) :=
  slots.zipIdx.find? fun x => x.1.span.start == pos

/-- What is written where a slot starts. -/
def emission (s : Slot) (i : Nat) : List Emission := if s.anchor.isNone then [.text i] else []

theorem filterMap_byte?_emission (s : Slot) (i : Nat) :
    (s.emission i).filterMap Emission.byte? = [] := by
  unfold emission
  split <;> rfl

theorem filterMap_text?_emission (s : Slot) (i : Nat) :
    (s.emission i).filterMap Emission.text? = if s.anchor.isNone then [i] else [] := by
  unfold emission
  split <;> rfl

/-- What is written for a text of length `hi` from `pos` on. -/
def walk (slots : List Slot) (hi pos : Nat) : List Emission :=
  (movedTo slots pos).map .text ++
    if pos < hi then
      match startingAt? slots pos with
      | some (s, i) => s.emission i ++ walk slots hi (max s.span.stop (pos + 1))
      | none => .byte pos :: walk slots hi (pos + 1)
    else []
termination_by hi - pos

/-! ## Slots that fit a text -/

/-- No slot lies across `pos`. -/
def Clear (slots : List Slot) (pos : Nat) : Prop :=
  ∀ s ∈ slots, ¬ (s.span.start < pos ∧ pos < s.span.stop)

/-- The slots stand in order in a text of length `hi`, and the anchors lie outside of them. -/
structure Fit (hi : Nat) (slots : List Slot) : Prop where
  inOrder : Span.InOrder hi 0 (slots.map (·.span))
  start_lt : ∀ s ∈ slots, s.span.start < s.span.stop
  anchor_le : ∀ s ∈ slots, ∀ a, s.anchor = some a → a ≤ hi
  anchor_clear : ∀ s ∈ slots, ∀ a, s.anchor = some a → Clear slots a

theorem mem_movedTo {slots : List Slot} {pos i : Nat} :
    i ∈ movedTo slots pos ↔ ∃ s, slots[i]? = some s ∧ s.anchor = some pos := by
  simp [movedTo, List.getElem?_eq_some_iff]

theorem movedTo_pairwise (slots : List Slot) (pos : Nat) :
    (movedTo slots pos).Pairwise (· < ·) := List.pairwise_findIdxs

theorem startingAt?_eq_some {slots : List Slot} {pos i : Nat} {s : Slot}
    (h : startingAt? slots pos = some (s, i)) : slots[i]? = some s ∧ s.span.start = pos := by
  unfold startingAt? at h
  have hstart := List.find?_some h
  exact ⟨List.mem_zipIdx_iff_getElem?.1 (List.mem_of_find?_eq_some h), beq_iff_eq.1 hstart⟩

theorem startingAt?_eq_none {slots : List Slot} {pos : Nat} (h : startingAt? slots pos = none) :
    ∀ s ∈ slots, s.span.start ≠ pos := by
  intro s hs hstart
  obtain ⟨i, hi⟩ := List.mem_iff_getElem?.1 hs
  have := List.find?_eq_none.1 h (s, i) (List.mem_zipIdx_iff_getElem?.2 hi)
  exact this (beq_iff_eq.2 hstart)

theorem clear_zero (slots : List Slot) : Clear slots 0 := fun _ _ hin => Nat.not_lt_zero _ hin.1

theorem Clear.succ {slots : List Slot} {pos : Nat} (hclear : Clear slots pos)
    (hnone : ∀ s ∈ slots, s.span.start ≠ pos) : Clear slots (pos + 1) := by
  intro s hs hin
  have h1 := hclear s hs
  have h2 := hnone s hs
  omega

/-- Where the text of a slot is written. -/
def place (s : Slot) : Nat := s.anchor.getD s.span.start

theorem place_eq_iff {s : Slot} {pos : Nat} :
    s.place = pos ↔ s.anchor = some pos ∨ (s.anchor = none ∧ s.span.start = pos) := by
  cases ha : s.anchor <;> simp [place, ha]

/-- Texts are written by place; where a slot starts, those moved there go first, in order. -/
def WrittenBefore (slots : List Slot) (i j : Nat) : Prop :=
  ∀ s t, slots[i]? = some s → slots[j]? = some t →
    s.place < t.place ∨
      (s.place = t.place ∧ s.anchor.isSome = true ∧ (t.anchor = none ∨ i < j))

theorem movedTo_writtenBefore (slots : List Slot) (pos : Nat) :
    (movedTo slots pos).Pairwise (WrittenBefore slots) := by
  refine (movedTo_pairwise slots pos).imp_of_mem fun hi hj hlt s t hs ht => ?_
  obtain ⟨s', hs', hsa⟩ := mem_movedTo.1 hi
  obtain ⟨t', ht', hta⟩ := mem_movedTo.1 hj
  cases hs.symm.trans hs'
  cases ht.symm.trans ht'
  exact .inr ⟨by rw [place, place, hsa, hta]; rfl, by rw [hsa]; rfl, .inr hlt⟩

/-- The numbers of the texts that are written from `pos` on, in the order of writing. -/
structure TextsFrom (slots : List Slot) (pos : Nat) (is : List Nat) : Prop where
  pairwise : is.Pairwise (WrittenBefore slots)
  mem_iff : ∀ i, i ∈ is ↔ ∃ s, slots[i]? = some s ∧ pos ≤ s.place

/-- The texts moved to `pos` go before that of the slot there and those of later places. -/
theorem TextsFrom.movedTo_append {slots : List Slot} {pos : Nat} {is : List Nat}
    (hpair : is.Pairwise (WrittenBefore slots))
    (hmem : ∀ i, i ∈ is ↔ ∃ s, slots[i]? = some s ∧
      (pos < s.place ∨ (s.anchor = none ∧ s.span.start = pos))) :
    TextsFrom slots pos (movedTo slots pos ++ is) := by
  constructor
  · refine List.pairwise_append.2 ⟨movedTo_writtenBefore slots pos, hpair, ?_⟩
    intro i hi j hj s t hs ht
    obtain ⟨s', hs', hsa⟩ := mem_movedTo.1 hi
    obtain ⟨t', ht', hplace⟩ := (hmem j).1 hj
    cases hs.symm.trans hs'
    cases ht.symm.trans ht'
    rw [place_eq_iff.2 (.inl hsa)]
    rcases hplace with hlt | hstart
    · exact .inl hlt
    · exact .inr ⟨(place_eq_iff.2 (.inr hstart)).symm, by rw [hsa]; rfl, .inl hstart.1⟩
  · intro i
    rw [List.mem_append, mem_movedTo, hmem]
    constructor
    · rintro (⟨s, hs, ha⟩ | ⟨s, hs, hlt | hstart⟩)
      · exact ⟨s, hs, Nat.le_of_eq (place_eq_iff.2 (.inl ha)).symm⟩
      · exact ⟨s, hs, Nat.le_of_lt hlt⟩
      · exact ⟨s, hs, Nat.le_of_eq (place_eq_iff.2 (.inr hstart)).symm⟩
    · rintro ⟨s, hs, hle⟩
      by_cases hlt : pos < s.place
      · exact .inr ⟨s, hs, .inl hlt⟩
      · have heq : s.place = pos := by omega
        rcases place_eq_iff.1 heq with ha | hstart
        · exact .inl ⟨s, hs, ha⟩
        · exact .inr ⟨s, hs, .inr hstart⟩

/-- Whether no slot contains an offset. -/
def outside (slots : List Slot) (p : Nat) : Bool := !slots.any fun s => s.span.contains p

theorem outside_eq_true_iff {slots : List Slot} {p : Nat} :
    outside slots p = true ↔ ∀ s ∈ slots, ¬ (s.span.start ≤ p ∧ p < s.span.stop) := by
  unfold outside
  rw [Bool.not_eq_true', List.any_eq_false]
  constructor
  · intro h s hs hin
    exact h s hs (Span.contains_iff.2 hin)
  · intro h s hs hin
    exact h s hs (Span.contains_iff.1 hin)

/-- An offset that no slot lies across and at which none starts is outside. -/
theorem Clear.outside {slots : List Slot} {pos : Nat} (hclear : Clear slots pos)
    (hnone : ∀ s ∈ slots, s.span.start ≠ pos) : outside slots pos = true := by
  rw [outside_eq_true_iff]
  intro s hs hin
  have h1 := hclear s hs
  have h2 := hnone s hs
  omega

/-- The offsets outside from the start of a slot on are those from its end on. -/
theorem filter_outside_start {slots : List Slot} {s : Slot} {hi : Nat} (hs : s ∈ slots)
    (hlt : s.span.start < s.span.stop) (hstop : s.span.stop ≤ hi) :
    (List.range' s.span.start (hi - s.span.start)).filter (outside slots) =
      (List.range' s.span.stop (hi - s.span.stop)).filter (outside slots) := by
  have hin : (List.range' s.span.start (s.span.stop - s.span.start)).filter (outside slots) =
      [] := by
    apply List.filter_eq_nil_iff.2
    intro p hp hout
    rw [List.mem_range'_1] at hp
    have := outside_eq_true_iff.1 hout s hs
    omega
  have hsplit : List.range' s.span.start (hi - s.span.start) =
      List.range' s.span.start (s.span.stop - s.span.start) ++
        List.range' s.span.stop (hi - s.span.stop) := by
    rw [show hi - s.span.start = (s.span.stop - s.span.start) + (hi - s.span.stop) by omega,
      ← List.range'_append_1, Nat.add_sub_cancel' (Nat.le_of_lt hlt)]
  rw [hsplit, List.filter_append, hin, List.nil_append]

section

variable {hi : Nat} {slots : List Slot} (h : Fit hi slots)

include h

theorem Fit.clear_stop {s : Slot} (hs : s ∈ slots) : Clear slots s.span.stop := by
  intro t ht hin
  have hlt := h.start_lt s hs
  rcases h.inOrder.eq_or_apart hs ht with rfl | hle | hle <;> omega

/-- To prove something of what is written from an offset on, prove it at the end of the text and
for each step of the walk. -/
theorem Fit.walk_induction {motive : Nat → List Emission → Prop}
    (stop : motive hi ((movedTo slots hi).map .text))
    (byte : ∀ pos rest, pos < hi → Clear slots pos → (∀ s ∈ slots, s.span.start ≠ pos) →
      motive (pos + 1) rest → motive pos ((movedTo slots pos).map .text ++ .byte pos :: rest))
    (tag : ∀ (pos : Nat) (rest : List Emission) (i : Nat) (s : Slot), slots[i]? = some s →
      s.span.start = pos → pos < s.span.stop → s.span.stop ≤ hi → motive s.span.stop rest →
      motive pos ((movedTo slots pos).map .text ++ (s.emission i ++ rest)))
    {pos : Nat} (hpos : pos ≤ hi) (hclear : Clear slots pos) : motive pos (walk slots hi pos) := by
  induction hn : hi - pos using Nat.strongRecOn generalizing pos with
  | _ n ih =>
    rw [walk]
    split
    · rename_i hlt
      split
      · rename_i s i hstart
        obtain ⟨hs, rfl⟩ := startingAt?_eq_some hstart
        have hmem := List.mem_of_getElem? hs
        have hspan := h.start_lt s hmem
        have hstop := (h.inOrder.bounds (List.mem_map_of_mem hmem)).2.2
        rw [Nat.max_eq_left hspan]
        exact tag _ _ i s hs rfl hspan hstop
          (ih (hi - s.span.stop) (by omega) hstop (h.clear_stop hmem) rfl)
      · rename_i hstart
        have hnone := startingAt?_eq_none hstart
        exact byte pos _ hlt hclear hnone
          (ih (hi - (pos + 1)) (by omega) hlt (hclear.succ hnone) rfl)
    · rw [List.append_nil, show pos = hi by omega]
      exact stop

/-! ## What is written -/

/-- The bytes outside the slots are written once each, in order. -/
theorem Fit.bytes_walk {pos : Nat} (hpos : pos ≤ hi) (hclear : Clear slots pos) :
    (walk slots hi pos).filterMap Emission.byte? =
      (List.range' pos (hi - pos)).filter (outside slots) := by
  refine h.walk_induction (motive := fun pos es => es.filterMap Emission.byte? =
    (List.range' pos (hi - pos)).filter (outside slots)) ?_ ?_ ?_ hpos hclear
  · rw [Emission.filterMap_byte?_text, Nat.sub_self]
    rfl
  · intro pos rest hlt hclear hnone ih
    rw [List.filterMap_append, Emission.filterMap_byte?_text, List.nil_append,
      show hi - pos = hi - (pos + 1) + 1 by omega, List.range'_succ,
      List.filter_cons_of_pos (hclear.outside hnone), ← ih]
    rfl
  · intro pos rest i s hs hstart hlt hstop ih
    subst hstart
    rw [List.filterMap_append, List.filterMap_append, Emission.filterMap_byte?_text,
      filterMap_byte?_emission, filter_outside_start (List.mem_of_getElem? hs) hlt hstop]
    exact ih

theorem Fit.place_le {s : Slot} (hs : s ∈ slots) : s.place ≤ hi := by
  cases ha : s.anchor with
  | none =>
    have hstop := (h.inOrder.bounds (List.mem_map_of_mem hs)).2
    rw [place, ha]
    exact Nat.le_trans hstop.1 hstop.2
  | some a =>
    rw [place, ha]
    exact h.anchor_le s hs a ha

theorem Fit.clear_place {s : Slot} (hs : s ∈ slots) : Clear slots s.place := by
  cases ha : s.anchor with
  | none =>
    rw [place, ha]
    intro t ht hin
    have hlt := h.start_lt s hs
    rcases h.inOrder.eq_or_apart hs ht with rfl | hle | hle <;> grind
  | some a =>
    rw [place, ha]
    exact h.anchor_clear s hs a ha

theorem Fit.index_eq {i j : Nat} {s t : Slot} (hi : slots[i]? = some s) (hj : slots[j]? = some t)
    (hstart : s.span.start = t.span.start) : i = j := by
  obtain ⟨hil, rfl⟩ := List.getElem?_eq_some_iff.1 hi
  obtain ⟨hjl, rfl⟩ := List.getElem?_eq_some_iff.1 hj
  have hpair := List.pairwise_iff_getElem.1 (List.pairwise_map.1 h.inOrder.pairwise)
  have hilt := h.start_lt slots[i] (List.getElem_mem hil)
  have hjlt := h.start_lt slots[j] (List.getElem_mem hjl)
  rcases Nat.lt_trichotomy i j with hlt | heq | hlt
  · have := hpair i j hil hjl hlt
    omega
  · exact heq
  · have := hpair j i hjl hil hlt
    omega

/-- Behind the last byte only the texts moved there are left. -/
theorem Fit.textsFrom_stop : TextsFrom slots hi (movedTo slots hi) := by
  rw [← List.append_nil (movedTo slots hi)]
  refine .movedTo_append .nil fun i => ⟨nofun, ?_⟩
  rintro ⟨s, hs, hlt | ⟨_, hstart⟩⟩
  · have hle := h.place_le (List.mem_of_getElem? hs)
    omega
  · have hmem := List.mem_of_getElem? hs
    have hlt := h.start_lt s hmem
    have hstop := (h.inOrder.bounds (List.mem_map_of_mem hmem)).2.2
    omega

omit h in
theorem TextsFrom.byte {pos : Nat} {is : List Nat} (hnone : ∀ s ∈ slots, s.span.start ≠ pos)
    (ih : TextsFrom slots (pos + 1) is) : TextsFrom slots pos (movedTo slots pos ++ is) := by
  apply TextsFrom.movedTo_append ih.pairwise
  intro i
  rw [ih.mem_iff]
  constructor
  · rintro ⟨s, hs, hle⟩
    exact ⟨s, hs, .inl hle⟩
  · rintro ⟨s, hs, hle | ⟨_, hstart⟩⟩
    · exact ⟨s, hs, hle⟩
    · exact absurd hstart (hnone s (List.mem_of_getElem? hs))

/-- A text that stays is written where its slot starts. -/
theorem Fit.textsFrom_kept {s : Slot} {i : Nat} {is : List Nat} (hs : slots[i]? = some s)
    (ha : s.anchor = none) (ih : TextsFrom slots s.span.stop is) :
    TextsFrom slots s.span.start (movedTo slots s.span.start ++ i :: is) := by
  have hlt := h.start_lt s (List.mem_of_getElem? hs)
  refine .movedTo_append (List.pairwise_cons.2 ⟨?_, ih.pairwise⟩) fun j => ?_
  · intro j hj s' t hs' ht
    obtain ⟨t', ht', hle⟩ := (ih.mem_iff j).1 hj
    cases hs.symm.trans hs'
    cases ht.symm.trans ht'
    rw [place_eq_iff.2 (.inr ⟨ha, rfl⟩)]
    exact .inl (Nat.lt_of_lt_of_le hlt hle)
  · rw [List.mem_cons, ih.mem_iff]
    constructor
    · rintro (rfl | ⟨t, ht, hle⟩)
      · exact ⟨s, hs, .inr ⟨ha, rfl⟩⟩
      · exact ⟨t, ht, .inl (Nat.lt_of_lt_of_le hlt hle)⟩
    · rintro ⟨t, ht, hplace | ⟨_, hstart⟩⟩
      · have hclear := h.clear_place (List.mem_of_getElem? ht) s (List.mem_of_getElem? hs)
        exact .inr ⟨t, ht, by omega⟩
      · exact .inl (h.index_eq ht hs hstart)

/-- Where the slot of a text that is moved starts, nothing is written for it. -/
theorem Fit.textsFrom_moved {s : Slot} {i : Nat} {is : List Nat} (hs : slots[i]? = some s)
    (ha : s.anchor ≠ none) (ih : TextsFrom slots s.span.stop is) :
    TextsFrom slots s.span.start (movedTo slots s.span.start ++ is) := by
  have hlt := h.start_lt s (List.mem_of_getElem? hs)
  apply TextsFrom.movedTo_append ih.pairwise
  intro j
  rw [ih.mem_iff]
  constructor
  · rintro ⟨t, ht, hle⟩
    exact ⟨t, ht, .inl (Nat.lt_of_lt_of_le hlt hle)⟩
  · rintro ⟨t, ht, hplace | ⟨hta, hstart⟩⟩
    · have hclear := h.clear_place (List.mem_of_getElem? ht) s (List.mem_of_getElem? hs)
      exact ⟨t, ht, by omega⟩
    · cases h.index_eq ht hs hstart
      cases hs.symm.trans ht
      exact absurd hta ha

/-- The texts to come are written once each: by place, those moved there first and in order. -/
theorem Fit.texts_walk {pos : Nat} (hpos : pos ≤ hi) (hclear : Clear slots pos) :
    TextsFrom slots pos ((walk slots hi pos).filterMap Emission.text?) := by
  refine h.walk_induction (motive := fun pos es =>
    TextsFrom slots pos (es.filterMap Emission.text?)) ?_ ?_ ?_ hpos hclear
  · rw [Emission.filterMap_text?_text]
    exact h.textsFrom_stop
  · intro pos rest _ _ hnone ih
    rw [List.filterMap_append, Emission.filterMap_text?_text, List.filterMap_cons_none rfl]
    exact ih.byte hnone
  · intro pos rest i s hs hstart _ _ ih
    subst hstart
    rw [List.filterMap_append, Emission.filterMap_text?_text, List.filterMap_append,
      filterMap_text?_emission]
    split
    · rename_i ha
      exact h.textsFrom_kept hs (Option.isNone_iff_eq_none.1 ha) ih
    · rename_i ha
      exact h.textsFrom_moved hs (fun hnone => ha (Option.isNone_iff_eq_none.2 hnone)) ih

/-! ## The whole walk -/

theorem Fit.bytes_walk_zero : (walk slots hi 0).filterMap Emission.byte? =
    (List.range hi).filter fun p => !(slots.map (·.span)).any (·.contains p) := by
  rw [h.bytes_walk (Nat.zero_le hi) (clear_zero slots), List.range_eq_range']
  exact List.filter_congr fun p _ => by rw [List.any_map]; rfl

/-- Every text is written once. -/
theorem Fit.texts_walk_perm :
    ((walk slots hi 0).filterMap Emission.text?).Perm (List.range slots.length) := by
  obtain ⟨hpair, hmem⟩ := h.texts_walk (Nat.zero_le hi) (clear_zero slots)
  have hnodup : ((walk slots hi 0).filterMap Emission.text?).Nodup := by
    apply hpair.imp_of_mem
    intro i j hi _ hij heq
    obtain ⟨s, hs, _⟩ := (hmem i).1 hi
    subst heq
    rcases hij s s hs hs with hlt | ⟨_, hsome, hnone | hlt⟩
    · omega
    · rw [hnone] at hsome
      cases hsome
    · omega
  apply (List.perm_ext_iff_of_nodup hnodup List.nodup_range).2
  intro i
  rw [hmem, List.mem_range]
  constructor
  · rintro ⟨s, hs, _⟩
    exact (List.getElem?_eq_some_iff.1 hs).1
  · intro hi
    exact ⟨slots[i], List.getElem?_eq_getElem hi, Nat.zero_le _⟩

/-- The texts moved to one offset keep their order. -/
theorem Fit.texts_walk_filter (a : Nat) :
    (((walk slots hi 0).filterMap Emission.text?).filter
      fun i => slots[i]?.any (·.anchor == some a)).Pairwise (· < ·) := by
  have hpair := (h.texts_walk (Nat.zero_le hi) (clear_zero slots)).pairwise
  apply (hpair.filter _).imp_of_mem
  intro i j hi hj hij
  obtain ⟨s, hs, hsa⟩ := (Option.any_eq_true _ _).1 (List.mem_filter.1 hi).2
  obtain ⟨t, ht, hta⟩ := (Option.any_eq_true _ _).1 (List.mem_filter.1 hj).2
  have hsa : s.anchor = some a := beq_iff_eq.1 hsa
  have hta : t.anchor = some a := beq_iff_eq.1 hta
  rcases hij s t hs ht with hlt | ⟨_, _, hnone | hlt⟩
  · rw [place_eq_iff.2 (.inl hsa), place_eq_iff.2 (.inl hta)] at hlt
    omega
  · cases hnone.symm.trans hta
  · exact hlt

end

end Slot

end Shortcode
