import Shortcode.Span

/-!
# Spans in order

`InOrder hi lo spans` says that spans follow each other without overlap from `lo` up to `hi`;
`Tiles hi lo spans` says that they also hold something each and leave no gap.

    Tiles text.length lo spans → spans.flatMap (·.slice text) = text.drop lo    (slices_of_tiles)
-/

namespace Shortcode

namespace Span

/-- The spans follow each other without overlap from `lo` on and end by `hi`. -/
def InOrder (hi : Nat) : Nat → List Span → Prop
  | lo, [] => lo ≤ hi
  | lo, s :: rest => lo ≤ s.start ∧ s.start ≤ s.stop ∧ InOrder hi s.stop rest

/-- The spans hold at least a byte each and cover the range from `lo` to `hi` without a gap. -/
def Tiles (hi : Nat) : Nat → List Span → Prop
  | lo, [] => lo = hi
  | lo, s :: rest => s.start = lo ∧ s.start < s.stop ∧ Tiles hi s.stop rest

theorem contains_iff {s : Span} {pos : Nat} :
    s.contains pos = true ↔ s.start ≤ pos ∧ pos < s.stop := by
  rw [contains, Bool.and_eq_true, decide_eq_true_iff, decide_eq_true_iff]

theorem strictlyContains_iff {s : Span} {pos : Nat} :
    s.strictlyContains pos = true ↔ s.start < pos ∧ pos < s.stop := by
  rw [strictlyContains, Bool.and_eq_true, decide_eq_true_iff, decide_eq_true_iff]

/-! ## Order -/

theorem InOrder.le {hi lo : Nat} {l : List Span} (h : InOrder hi lo l) : lo ≤ hi := by
  induction l generalizing lo with
  | nil => exact h
  | cons s rest ih =>
    obtain ⟨h1, h2, h3⟩ := h
    have := ih h3
    omega

theorem InOrder.mono_left {hi lo lo' : Nat} {l : List Span} (h : InOrder hi lo l)
    (hlo : lo' ≤ lo) : InOrder hi lo' l := by
  cases l with
  | nil =>
    have := h.le
    show lo' ≤ hi
    omega
  | cons s rest => exact ⟨Nat.le_trans hlo h.1, h.2.1, h.2.2⟩

theorem inOrder_append {hi lo : Nat} {a b : List Span} :
    InOrder hi lo (a ++ b) ↔ ∃ mid, InOrder mid lo a ∧ InOrder hi mid b := by
  induction a generalizing lo with
  | nil =>
    constructor
    · intro h
      exact ⟨lo, Nat.le_refl lo, h⟩
    · rintro ⟨mid, h1, h2⟩
      exact h2.mono_left h1
  | cons s a ih =>
    constructor
    · rintro ⟨h1, h2, h3⟩
      obtain ⟨mid, h4, h5⟩ := ih.1 h3
      exact ⟨mid, ⟨h1, h2, h4⟩, h5⟩
    · rintro ⟨mid, ⟨h1, h2, h3⟩, h4⟩
      exact ⟨h1, h2, ih.2 ⟨mid, h3, h4⟩⟩

theorem InOrder.append {hi mid lo : Nat} {a b : List Span} (ha : InOrder mid lo a)
    (hb : InOrder hi mid b) : InOrder hi lo (a ++ b) :=
  inOrder_append.2 ⟨mid, ha, hb⟩

theorem InOrder.mono_right {hi hi' lo : Nat} {l : List Span} (h : InOrder hi lo l)
    (hhi : hi ≤ hi') : InOrder hi' lo l := by
  rw [← List.append_nil l]
  exact h.append hhi

theorem InOrder.bounds {hi lo : Nat} {l : List Span} (h : InOrder hi lo l) {s : Span}
    (hs : s ∈ l) : lo ≤ s.start ∧ s.start ≤ s.stop ∧ s.stop ≤ hi := by
  obtain ⟨a, b, rfl⟩ := List.append_of_mem hs
  obtain ⟨mid, ha, h1, h2, hb⟩ := inOrder_append.1 h
  have := ha.le
  have := hb.le
  omega

theorem InOrder.pairwise {hi lo : Nat} {l : List Span} (h : InOrder hi lo l) :
    l.Pairwise fun a b => a.stop ≤ b.start := by
  induction l generalizing lo with
  | nil => exact .nil
  | cons s rest ih => exact .cons (fun t ht => (h.2.2.bounds ht).1) (ih h.2.2)

/-- Two things with spans in order are the same or do not overlap. -/
theorem InOrder.eq_or_apart {α : Type} {f : α → Span} {hi lo : Nat} {l : List α}
    (h : InOrder hi lo (l.map f)) {a b : α} (ha : a ∈ l) (hb : b ∈ l) :
    a = b ∨ (f a).stop ≤ (f b).start ∨ (f b).stop ≤ (f a).start := by
  induction l generalizing lo with
  | nil => cases ha
  | cons c rest ih =>
    rcases List.mem_cons.1 ha with rfl | ha'
    · rcases List.mem_cons.1 hb with rfl | hb'
      · exact .inl rfl
      · exact .inr (.inl (h.2.2.bounds (List.mem_map_of_mem hb')).1)
    · rcases List.mem_cons.1 hb with rfl | hb'
      · exact .inr (.inr (h.2.2.bounds (List.mem_map_of_mem ha')).1)
      · exact ih h.2.2 ha' hb'

/-- Leaving spans out keeps the others in order. -/
theorem InOrder.sublist {hi lo : Nat} {a b : List Span} (h : InOrder hi lo b)
    (hab : a.Sublist b) : InOrder hi lo a := by
  induction hab generalizing lo with
  | slnil => exact h
  | cons s _ ih => exact ih (h.2.2.mono_left (Nat.le_trans h.1 h.2.1))
  | cons_cons s _ ih => exact ⟨h.1, h.2.1, ih h.2.2⟩

/-! ## Tilings -/

/-- Tiles read one after the other give the text from where they start. -/
theorem slices_of_tiles {text : Text} {lo : Nat} {l : List Span} (h : Tiles text.length lo l) :
    l.flatMap (·.slice text) = text.drop lo := by
  induction l generalizing lo with
  | nil =>
    rw [show lo = text.length from h, List.drop_length]
    rfl
  | cons s rest ih =>
    obtain ⟨h1, h2, h3⟩ := h
    have hstop : s.stop = lo + s.length := by
      unfold length
      omega
    rw [List.flatMap_cons, ih h3, slice, h1, hstop, ← List.drop_drop, List.take_append_drop]

end Span

end Shortcode
