import Shortcode.Proofs.CursorReach
import Shortcode.Scan

/-!
# Where bracket tags stand

The tag that is read at a `[` takes up exactly the text up to the cursor after it, doubled brackets
included (`Bracket.outer`).  The tags of a text without markup are therefore in order.
-/

namespace Shortcode

open Byte

namespace Bracket

/-- The tag with the doubled brackets around it. -/
def outer (b : Bracket) : Span :=
  ⟨b.span.start - b.lead.toNat, b.span.stop + b.trail.toNat⟩

/-- The tag holds something, and there is room for a doubled bracket in front of it. -/
structure Proper (b : Bracket) : Prop where
  start_lt_stop : b.span.start < b.span.stop
  lead_le : b.lead.toNat ≤ b.span.start

theorem Proper.one_le {b : Bracket} (hb : b.Proper) (hlead : b.lead = true) :
    1 ≤ b.span.start := by
  have h := hb.lead_le
  rwa [hlead] at h

theorem Proper.toNat_le {b : Bracket} (hb : b.Proper) {keep : Bool}
    (hkeep : keep = true → b.lead = true) : keep.toNat ≤ b.span.start := by
  cases keep with
  | false => exact Nat.zero_le _
  | true => exact hb.one_le (hkeep rfl)

/-- `b` was read at `c` and ends at `d`. -/
structure ReadFrom (c d : Cursor) (context : Context) (b : Bracket) : Prop where
  reaches : c.Reaches d
  context_eq : b.context = context
  start_eq : b.span.start = c.pos + b.lead.toNat
  start_lt_stop : b.span.start < b.span.stop
  stop_eq : d.pos = b.span.stop + b.trail.toNat

theorem ReadFrom.outer_eq {c d : Cursor} {context : Context} {b : Bracket}
    (h : ReadFrom c d context b) : b.outer = c.spanTo d := by
  unfold outer Cursor.spanTo
  rw [h.start_eq, h.stop_eq, Nat.add_sub_cancel]

theorem ReadFrom.proper {c d : Cursor} {context : Context} {b : Bracket}
    (h : ReadFrom c d context b) : b.Proper :=
  ⟨h.start_lt_stop, by rw [h.start_eq]; exact Nat.le_add_left _ _⟩

theorem outer_start_le (b : Bracket) : b.outer.start ≤ b.span.start := Nat.sub_le _ _

theorem span_stop_le_outer (b : Bracket) : b.span.stop ≤ b.outer.stop := Nat.le_add_right _ _

theorem Proper.outer_start_lt {b : Bracket} (h : b.Proper) : b.outer.start < b.outer.stop := by
  have := h.start_lt_stop
  show b.span.start - b.lead.toNat < b.span.stop + b.trail.toNat
  omega

/-! ## Reading -/

theorem reaches_of_readClosing {context : Context} {start : Nat} {c d : Cursor} {b : Bracket}
    (h : readClosing context start c = some (b, d)) :
    c.Reaches d ∧ b.span = ⟨start, d.pos⟩ ∧ b.context = context := by
  unfold readClosing at h
  simp only at h
  split at h
  · cases h
  · rename_i hn
    cases h
    refine ⟨(Cursor.reaches_skipWhile _ _).trans (Cursor.reaches_advance ?_), rfl, rfl⟩
    simp only [Bool.or_eq_true, Bool.not_eq_true', not_or, Bool.not_eq_false] at hn
    exact Cursor.length_le_of_startsWith hn.2

theorem reaches_of_readOpening {context : Context} {start : Nat} {c d : Cursor} {b : Bracket}
    (h : readOpening context start c = some (b, d)) :
    c.Reaches d ∧ b.span = ⟨start, d.pos⟩ ∧ b.context = context := by
  unfold readOpening at h
  simp only at h
  split at h
  · cases h
  · split at h
    · cases h
    · rename_i arguments stop hr
      obtain ⟨hreach, hstop⟩ := Arguments.reaches_of_readInto hr
      cases h
      refine ⟨(Cursor.reaches_skipWhile _ _).trans (hreach.trans (Cursor.reaches_advance ?_)),
        rfl, rfl⟩
      split
      · rename_i hs
        exact Cursor.length_le_of_startsWith hs
      · rename_i hs
        rcases Bool.or_eq_true _ _ ▸ hstop with hb | hb
        · exact (List.isPrefixOf_iff_prefix.1 hb).length_le
        · exact absurd hb hs

theorem readFrom_of_readSingle {context : Context} {c d : Cursor} {b : Bracket}
    (hc : c.rest ≠ []) (h : readSingle? context c = some (b, d)) :
    c.Reaches d ∧ b.span = c.spanTo d ∧ b.context = context := by
  unfold readSingle? at h
  simp only at h
  have hnext := Cursor.reaches_next hc
  split at h
  · rename_i hs
    obtain ⟨h1, h2, h3⟩ := reaches_of_readClosing h
    exact ⟨hnext.trans ((Cursor.reaches_advance (Cursor.length_le_of_startsWith hs)).trans h1),
      h2, h3⟩
  · obtain ⟨h1, h2, h3⟩ := reaches_of_readOpening h
    exact ⟨hnext.trans h1, h2, h3⟩

/-- A tag takes up the text from its first `[` to the cursor after it. -/
theorem readFrom_of_read {context : Context} {c d : Cursor} {b : Bracket}
    (h : read? context c = some (b, d)) : ReadFrom c d context b := by
  have hlt := length_read_lt h
  have hne : c.rest ≠ [] := by
    intro e
    rw [e] at hlt
    exact Nat.not_lt_zero _ hlt
  unfold read? at h
  simp only at h
  split at h
  · cases h
  · rename_i b' after hs
    -- the tag proper starts one byte further on if its first `[` is doubled
    generalize hlead : (c.peekAt? 1 == some leftBracket) = lead at h hs
    have hsingle : (c.advance lead.toNat).rest ≠ [] ∧
        readSingle? context (c.advance lead.toNat) = some (b', after) := by
      cases lead with
      | false => exact ⟨hne, hs⟩
      | true =>
        refine ⟨?_, hs⟩
        intro e
        have hpeek : c.rest[1]? = some leftBracket := by simpa [Cursor.peekAt?] using hlead
        have hlen := congrArg List.length e
        rw [Cursor.advance_rest, List.length_drop] at hlen
        have := (List.getElem?_eq_some_iff.1 hpeek).1
        simp at hlen
        omega
    obtain ⟨hreach, hspan, hctx⟩ := readFrom_of_readSingle hsingle.1 hsingle.2
    have hfirst : c.Reaches (c.advance lead.toNat) := by
      cases lead with
      | false => exact .refl c
      | true => exact Cursor.reaches_next hne
    have hpos : (c.advance lead.toNat).pos < after.pos :=
      hreach.pos_lt (length_readSingle_lt hsingle.2)
    have htrail : after.Reaches (after.advance (after.startsWith [rightBracket]).toNat) := by
      cases ht : after.startsWith [rightBracket] with
      | false => exact .refl after
      | true => exact Cursor.reaches_advance (Cursor.length_le_of_startsWith ht)
    have hafter : (if after.startsWith [rightBracket] = true then after.advance 1 else after) =
        after.advance (after.startsWith [rightBracket]).toNat := by
      cases after.startsWith [rightBracket] <;> rfl
    rw [hafter] at h
    cases h
    refine ⟨hfirst.trans (hreach.trans htrail), hctx, ?_, ?_, ?_⟩
    · rw [hspan]
      rfl
    · rw [hspan]
      exact hpos
    · rw [hspan]
      rfl

/-! ## Texts without markup -/

/-- The tags stand in order, doubled brackets included. -/
abbrev InOrder (hi lo : Nat) (bs : List Bracket) : Prop := Span.InOrder hi lo (bs.map outer)

end Bracket

namespace Scan

theorem brackets_inOrder (context : Context) (c : Cursor) :
    Bracket.InOrder c.stop c.pos (brackets context c) ∧
      ∀ b ∈ brackets context c, b.context = context ∧ b.Proper := by
  induction hn : c.rest.length using Nat.strongRecOn generalizing c with
  | _ n ih =>
    subst hn
    rw [brackets]
    split
    · exact ⟨c.pos_le_stop, fun b hb => by cases hb⟩
    · rename_i first rest hc
      have hne : c.rest ≠ [] := by simp [hc]
      have hnext := Cursor.reaches_next hne
      have hskip := ih _ (Cursor.length_advance_lt (by decide : 0 < 1) hne) (c.advance 1) rfl
      rw [hnext.stop_eq] at hskip
      have hskip' : Bracket.InOrder c.stop c.pos (brackets context (c.advance 1)) :=
        hskip.1.mono_left hnext.pos_le
      split
      · split
        · rename_i tag after htag
          have hread := Bracket.readFrom_of_read htag
          obtain ⟨h1, h2⟩ := ih _ (Bracket.length_read_lt htag) after rfl
          rw [hread.reaches.stop_eq] at h1
          constructor
          · rw [Bracket.InOrder, List.map_cons, hread.outer_eq]
            exact ⟨Nat.le_refl _, hread.reaches.pos_le, h1⟩
          · intro b hb
            rcases List.mem_cons.1 hb with rfl | hb
            · exact ⟨hread.context_eq, hread.proper⟩
            · exact h2 b hb
        · exact ⟨hskip', hskip.2⟩
      · exact ⟨hskip', hskip.2⟩

end Scan

end Shortcode
