import Shortcode.Proofs.Reassembly
import Shortcode.Proofs.ShiftedElements

/-!
# Putting together behind other text

A document is put together in one walk through its text.  With more text in front, the walk writes
that text first, since no tag starts in it and nothing is moved there, and then goes on as without
it.

    Segment.assemble (p ++ source) … = p ++ Segment.assemble source …             (assemble_shifted)
-/

namespace Shortcode

/-- What is placed for a tag, with its anchor `n` bytes further on. -/
def Placed.shifted (n : Nat) (placed : Placed) : Placed :=
  { placed with anchor := placed.anchor.map (· + n) }

namespace Slot

/-- The slot `n` bytes further on. -/
def shifted (n : Nat) (s : Slot) : Slot := ⟨s.span.shifted n, s.text, s.anchor.map (· + n)⟩

variable (n : Nat) (slots : List Slot)

theorem inOrder_shifted {hi lo : Nat} {spans : List Span} (h : Span.InOrder hi lo spans) :
    Span.InOrder (hi + n) (lo + n) (spans.map (·.shifted n)) := by
  induction spans generalizing lo with
  | nil => exact Nat.add_le_add_right h n
  | cons s rest ih =>
    exact ⟨Nat.add_le_add_right h.1 n, Nat.add_le_add_right h.2.1 n, ih h.2.2⟩

theorem anchor_shifted_eq_some {s : Slot} {a : Nat} :
    (s.shifted n).anchor = some a ↔ ∃ b, s.anchor = some b ∧ b + n = a := Option.map_eq_some_iff

/-- Slots that fit a text fit it further on. -/
theorem Fit.shifted {hi : Nat} (h : Fit hi slots) : Fit (hi + n) (slots.map (·.shifted n)) where
  inOrder := by
    have hspans :
        (slots.map (·.shifted n)).map (·.span) = (slots.map (·.span)).map (·.shifted n) := by
      rw [List.map_map, List.map_map]
      rfl
    rw [hspans]
    exact (inOrder_shifted n h.inOrder).mono_left (Nat.zero_le _)
  start_lt := by
    refine List.forall_mem_map.2 fun s hs => ?_
    exact Nat.add_lt_add_right (h.start_lt s hs) n
  anchor_le := by
    refine List.forall_mem_map.2 fun s hs a ha => ?_
    obtain ⟨b, hb, rfl⟩ := (anchor_shifted_eq_some n).1 ha
    exact Nat.add_le_add_right (h.anchor_le s hs b hb) n
  anchor_clear := by
    refine List.forall_mem_map.2 fun s hs a ha => ?_
    obtain ⟨b, hb, rfl⟩ := (anchor_shifted_eq_some n).1 ha
    refine List.forall_mem_map.2 fun t ht hin => ?_
    exact h.anchor_clear s hs b hb t ht
      ⟨Nat.lt_of_add_lt_add_right hin.1, Nat.lt_of_add_lt_add_right hin.2⟩

/-! ## The walk further on -/

theorem movedTo_shifted (pos : Nat) :
    movedTo (slots.map (·.shifted n)) (pos + n) = movedTo slots pos := by
  unfold movedTo
  rw [List.findIdxs_map]
  refine congrArg (List.findIdxs · slots) (funext fun s => ?_)
  rw [Function.comp_apply, Bool.eq_iff_iff, beq_iff_eq, beq_iff_eq, anchor_shifted_eq_some]
  constructor
  · rintro ⟨b, hb, he⟩
    rw [hb, Nat.add_right_cancel he]
  · exact fun ha => ⟨pos, ha, rfl⟩

theorem startingAt?_shifted (pos : Nat) : startingAt? (slots.map (·.shifted n)) (pos + n) =
    (startingAt? slots pos).map (Prod.map (·.shifted n) id) := by
  unfold startingAt?
  rw [List.zipIdx_map, List.find?_map]
  refine congrArg (fun found => Option.map _ (List.find? found slots.zipIdx)) (funext fun x => ?_)
  rw [Bool.eq_iff_iff, Function.comp_apply, beq_iff_eq, beq_iff_eq]
  exact Nat.add_right_cancel_iff

end Slot

/-- What is written, with the offset of a byte `n` bytes further on. -/
def Emission.shifted (n : Nat) : Emission → Emission
  | .byte pos => .byte (pos + n)
  | .text i => .text i

theorem Emission.write_shifted (p source : Text) (slots : List Slot) (e : Emission) :
    write (p ++ source) (slots.map (·.shifted p.length)) (e.shifted p.length) =
      write source slots e := by
  cases e with
  | byte pos =>
    show (p ++ source)[pos + p.length]?.toList = source[pos]?.toList
    rw [List.getElem?_append_right (Nat.le_add_left ..), Nat.add_sub_cancel]
  | text i =>
    show (((slots.map (·.shifted p.length))[i]?).map (·.text)).getD [] = _
    rw [List.getElem?_map, Option.map_map]
    rfl

namespace Slot

variable (n : Nat) (slots : List Slot)

theorem emission_shifted (s : Slot) (i : Nat) :
    (s.shifted n).emission i = (s.emission i).map (·.shifted n) := by
  unfold emission
  rw [shifted, Option.isNone_map]
  split <;> rfl

theorem walk_shifted (hi pos : Nat) : walk (slots.map (·.shifted n)) (hi + n) (pos + n) =
    (walk slots hi pos).map (·.shifted n) := by
  induction hlen : hi - pos using Nat.strongRecOn generalizing pos with
  | _ len ih =>
    subst hlen
    have htexts : ((movedTo slots pos).map Emission.text).map (·.shifted n) =
        (movedTo slots pos).map Emission.text := by
      rw [List.map_map]
      rfl
    conv_rhs => rw [walk, List.map_append, htexts]
    rw [walk, movedTo_shifted, startingAt?_shifted]
    by_cases hlt : pos < hi
    · rw [if_pos hlt, if_pos (Nat.add_lt_add_right hlt n)]
      cases startingAt? slots pos with
      | none =>
        have hnext := ih (hi - (pos + 1)) (by omega) (pos + 1) rfl
        rw [Nat.add_right_comm] at hnext
        simp only [Option.map_none, hnext, List.map_cons]
        rfl
      | some found =>
        obtain ⟨s, i⟩ := found
        have hnext := ih (hi - max s.span.stop (pos + 1)) (by omega) (max s.span.stop (pos + 1)) rfl
        have hmax : max (s.shifted n).span.stop (pos + n + 1) = max s.span.stop (pos + 1) + n := by
          rw [Nat.add_right_comm, ← Nat.add_max_add_right]
          rfl
        simp only [Option.map_some, Prod.map_apply, id_eq, hmax, hnext, emission_shifted,
          List.map_append]
    · rw [if_neg hlt, if_neg fun h => hlt (Nat.lt_of_add_lt_add_right h), List.map_nil]

/-! ## The walk through the text in front -/

/-- Nothing is moved into the text in front, and no tag starts in it. -/
theorem nothing_in_front {pos : Nat} (hpos : pos < n) :
    movedTo (slots.map (·.shifted n)) pos = [] ∧
      startingAt? (slots.map (·.shifted n)) pos = none := by
  constructor
  · refine List.eq_nil_iff_forall_not_mem.2 fun i hi => ?_
    obtain ⟨s, hs, ha⟩ := mem_movedTo.1 hi
    obtain ⟨t, -, rfl⟩ := List.mem_map.1 (List.mem_of_getElem? hs)
    obtain ⟨b, -, rfl⟩ := (anchor_shifted_eq_some n).1 ha
    exact absurd hpos (Nat.not_lt.2 (Nat.le_add_left ..))
  · refine Option.eq_none_iff_forall_ne_some.2 fun ⟨s, i⟩ hfound => ?_
    obtain ⟨hs, rfl⟩ := startingAt?_eq_some hfound
    obtain ⟨t, -, rfl⟩ := List.mem_map.1 (List.mem_of_getElem? hs)
    exact absurd hpos (Nat.not_lt.2 (Nat.le_add_left ..))

/-- The walk writes the text in front as it is. -/
theorem walk_front (p source : Text) {pos : Nat} (hpos : pos ≤ p.length) :
    (walk (slots.map (·.shifted p.length)) (source.length + p.length) pos).flatMap
        (Emission.write (p ++ source) (slots.map (·.shifted p.length))) =
      p.drop pos ++ (walk slots source.length 0).flatMap (Emission.write source slots) := by
  induction hlen : p.length - pos using Nat.strongRecOn generalizing pos with
  | _ len ih =>
    subst hlen
    rcases Nat.lt_or_eq_of_le hpos with hlt | rfl
    · obtain ⟨hmoved, hstart⟩ := nothing_in_front p.length slots hlt
      have hbyte : Emission.write (p ++ source) (slots.map (·.shifted p.length)) (.byte pos) =
          [p[pos]] := by
        show (p ++ source)[pos]?.toList = _
        rw [List.getElem?_append_left hlt, List.getElem?_eq_getElem hlt]
        rfl
      rw [walk, hmoved, hstart, if_pos (Nat.lt_of_lt_of_le hlt (Nat.le_add_left ..))]
      show (Emission.byte pos :: walk _ _ (pos + 1)).flatMap _ = _
      rw [List.flatMap_cons, hbyte, ih _ (by omega) hlt rfl, ← List.append_assoc,
        List.singleton_append, List.getElem_cons_drop]
    · have hwalk := walk_shifted p.length slots source.length 0
      rw [Nat.zero_add] at hwalk
      rw [hwalk, List.drop_length, List.nil_append, List.flatMap_map]
      exact List.flatMap_congr fun e _ => e.write_shifted p source slots

end Slot

/-- **Putting together a shifted document** puts the text in front of it. -/
theorem Segment.assemble_shifted (p : Text) {source : Text} {slots : List Slot}
    (hfit : Slot.Fit source.length slots) {os : List Occurrence}
    (hspans : os.map (·.span) = slots.map (·.span)) :
    assemble (p ++ source)
        (Scan.segmentsFrom (p ++ source).length 0 (os.map (·.shifted p.length)))
        ((slots.map Slot.placed).map (·.shifted p.length)) =
      p ++ assemble source (Scan.segmentsFrom source.length 0 os) (slots.map Slot.placed) := by
  have hlength : (p ++ source).length = source.length + p.length := by
    rw [List.length_append, Nat.add_comm]
  have hplaced : (slots.map Slot.placed).map (·.shifted p.length) =
      (slots.map (·.shifted p.length)).map Slot.placed := by
    rw [List.map_map, List.map_map]
    rfl
  have hspans' : (os.map (·.shifted p.length)).map (·.span) =
      (slots.map (·.shifted p.length)).map (·.span) := by
    calc (os.map (·.shifted p.length)).map (·.span)
      _ = (os.map (·.span)).map (·.shifted p.length) := by rw [List.map_map, List.map_map]; rfl
      _ = (slots.map (·.span)).map (·.shifted p.length) := by rw [hspans]
      _ = (slots.map (·.shifted p.length)).map (·.span) := by rw [List.map_map, List.map_map]; rfl
  have hfit' : Slot.Fit (p ++ source).length (slots.map (·.shifted p.length)) :=
    hlength ▸ hfit.shifted p.length slots
  rw [hplaced, Slot.assemble_eq_walk hfit' hspans', Slot.assemble_eq_walk hfit hspans, hlength,
    Slot.walk_front slots p source (Nat.zero_le _), List.drop_zero]

end Shortcode
