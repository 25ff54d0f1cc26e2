import Mathlib.Data.List.Chain
import Shortcode.Proofs.Pairing
import Shortcode.Proofs.ScanOrder

/-!
# The segments of a scan tile the text

Literal runs and occurrences follow each other from the start of the text to its end without a gap,
so writing each of them out as it stands in the source gives the source back.

    (Scan.ofText source pairs).segments.map Segment.span? = spans.map some →
      Span.Tiles source.length 0 spans                                        (segments_tile)
-/

namespace Shortcode

namespace Segment

/-- The part of the source that a segment stands for; a marker stands for none. -/
def span? : Segment → Option Span
  | .literal span => some span
  | .tag o => some o.span
  | .marker _ => none

def isLiteral : Segment → Bool
  | .literal _ => true
  | _ => false

end Segment

namespace Scan

/-- The occurrences of a text. -/
theorem occurrences_inOrder (source : Text) (pairs : Text → Bool) :
    Span.InOrder source.length 0
        ((Occurrence.ofBrackets pairs (tags source)).map Occurrence.span) ∧
      ∀ o ∈ Occurrence.ofBrackets pairs (tags source), o.span.start < o.span.stop :=
  (Occurrence.pairing_ofBrackets pairs (tags source)).inOrder (tags_inOrder source)
    fun _ => proper_of_mem_tags

theorem segments_ofText (source : Text) (pairs : Text → Bool) :
    (ofText source pairs).segments =
      segmentsFrom source.length 0 (Occurrence.ofBrackets pairs (tags source)) := rfl

theorem segmentsFrom_occurrence? (hi lo : Nat) (os : List Occurrence) :
    (segmentsFrom hi lo os).filterMap Segment.occurrence? = os := by
  induction os generalizing lo with
  | nil =>
    rw [segmentsFrom]
    split <;> rfl
  | cons o rest ih =>
    rw [segmentsFrom]
    split
    · exact congrArg (o :: ·) (ih _)
    · exact congrArg (o :: ·) (ih _)

theorem occurrences_ofText (source : Text) (pairs : Text → Bool) :
    (ofText source pairs).occurrences = Occurrence.ofBrackets pairs (tags source) :=
  segmentsFrom_occurrence? _ _ _

theorem segments_eq_segmentsFrom (source : Text) (pairs : Text → Bool) :
    (ofText source pairs).segments =
      segmentsFrom source.length 0 (ofText source pairs).occurrences := by
  rw [occurrences_ofText, segments_ofText]

/-! ## Literal runs -/

/-- Filling the gaps between spans in order gives a tiling. -/
theorem segmentsFrom_tile {hi lo : Nat} {os : List Occurrence}
    (h : Span.InOrder hi lo (os.map Occurrence.span))
    (hos : ∀ o ∈ os, o.span.start < o.span.stop) :
    ∃ spans, (segmentsFrom hi lo os).map Segment.span? = spans.map some ∧
      Span.Tiles hi lo spans := by
  induction os generalizing lo with
  | nil =>
    have hle : lo ≤ hi := h
    rw [segmentsFrom]
    split
    · rename_i hlt
      exact ⟨[⟨lo, hi⟩], rfl, rfl, hlt, rfl⟩
    · exact ⟨[], rfl, show lo = hi by omega⟩
  | cons o rest ih =>
    obtain ⟨h1, -, h3⟩ := h
    have ho := hos o List.mem_cons_self
    obtain ⟨spans, h4, h5⟩ := ih h3 fun p hp => hos p (List.mem_cons_of_mem _ hp)
    rw [segmentsFrom]
    split
    · rename_i hlt
      refine ⟨⟨lo, o.span.start⟩ :: o.span :: spans, ?_, rfl, hlt, rfl, ho, h5⟩
      rw [List.map_cons, List.map_cons, h4]
      rfl
    · refine ⟨o.span :: spans, ?_, show o.span.start = lo by omega, ho, h5⟩
      rw [List.map_cons, h4]
      rfl

/-- A literal run ends where a tag starts or at the end of the text. -/
theorem segmentsFrom_isChain (hi lo : Nat) (os : List Occurrence) :
    (segmentsFrom hi lo os).IsChain fun a b => ¬ (a.isLiteral = true ∧ b.isLiteral = true) := by
  have htag : ∀ (o : Occurrence) (segments : List Segment),
      (segments.IsChain fun a b => ¬ (a.isLiteral = true ∧ b.isLiteral = true)) →
      (Segment.tag o :: segments).IsChain
        fun a b => ¬ (a.isLiteral = true ∧ b.isLiteral = true) := by
    intro o segments h
    cases segments with
    | nil => exact .singleton _
    | cons s rest => exact .cons_cons (fun hs => nomatch hs.1) h
  induction os generalizing lo with
  | nil =>
    rw [segmentsFrom]
    split
    · exact .singleton _
    · exact .nil
  | cons o rest ih =>
    rw [segmentsFrom]
    split
    · exact .cons_cons (fun hs => nomatch hs.2) (htag o _ (ih _))
    · exact htag o _ (ih _)

theorem marker_notMem_segmentsFrom (hi lo : Nat) (os : List Occurrence) (k : Nat) :
    Segment.marker k ∉ segmentsFrom hi lo os := by
  induction os generalizing lo with
  | nil =>
    rw [segmentsFrom]
    split <;> simp
  | cons o rest ih =>
    rw [segmentsFrom]
    split <;> simp [ih]

/-! ## Main statement -/

/-- The segments of a text are non-empty, follow each other without a gap from its start to its
end, hold no marker and no two literal runs side by side, and read one after the other they are the
text. -/
theorem segments_tile (source : Text) (pairs : Text → Bool) :
    ∃ spans, (ofText source pairs).segments.map Segment.span? = spans.map some ∧
      Span.Tiles source.length 0 spans ∧
      ((ofText source pairs).segments.IsChain
        fun a b => ¬ (a.isLiteral = true ∧ b.isLiteral = true)) ∧
      (∀ k, Segment.marker k ∉ (ofText source pairs).segments) ∧
      spans.flatMap (·.slice source) = source := by
  obtain ⟨h1, h2⟩ := occurrences_inOrder source pairs
  obtain ⟨spans, hspans, htiles⟩ := segmentsFrom_tile h1 h2
  refine ⟨spans, hspans, htiles, segmentsFrom_isChain _ _ _, fun k => ?_, ?_⟩
  · exact marker_notMem_segmentsFrom _ _ _ k
  · exact Span.slices_of_tiles htiles

/-- An escape takes its doubled brackets in; the text around it is literal. -/
example : ((Scan.ofText (Text.ofString "x[[t]]y") fun _ => true).segments.map Segment.span?) =
    [some ⟨0, 1⟩, some ⟨1, 6⟩, some ⟨6, 7⟩] := by
  decide +kernel

end Scan

end Shortcode
