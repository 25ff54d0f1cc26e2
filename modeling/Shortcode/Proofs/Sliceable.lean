import Shortcode.Proofs.CutTexts
import Shortcode.Proofs.Tearing

/-!
# No text is cut out of range

Every span that scanning a string gives, every boundary of an element and every anchor lies in the
string and between its characters; so does whatever is cut out on the way.

    Sliceable (Text.ofString s) pairs                                        (sliceable_ofString)
-/

namespace Shortcode

open Byte

/-! ## Spans -/

namespace Span

variable {source : Text} {s t : Span}

/-- From the start of one run to the end of another. -/
theorem fits_hull (hs : s.fits source = true) (ht : t.fits source = true)
    (hle : s.start ≤ t.stop) : (Span.mk s.start t.stop).fits source = true := by
  obtain ⟨-, -, hstart, -⟩ := fits_iff.1 hs
  obtain ⟨-, hlen, -, hstop⟩ := fits_iff.1 ht
  exact fits_iff.2 ⟨hle, hlen, hstart, hstop⟩

/-- From the end of one run to the start of another. -/
theorem fits_gap (hs : s.fits source = true) (ht : t.fits source = true)
    (hle : s.stop ≤ t.start) : (Span.mk s.stop t.start).fits source = true := by
  obtain ⟨-, -, -, hstart⟩ := fits_iff.1 hs
  obtain ⟨hlt, hlen, hstop, -⟩ := fits_iff.1 ht
  exact fits_iff.2 ⟨hle, Nat.le_trans hlt hlen, hstart, hstop⟩

end Span

/-! ## Occurrences -/

/-- What is cut out where a tag stands: the tag, what it encloses and, if it is an escape, the text
that it stands for. -/
structure Occurrence.Fits (source : Text) (o : Occurrence) : Prop where
  span : o.span.fits source = true
  content : ∀ c, o.content = some c → c.fits source = true
  /-- There is a byte to leave out at the end. -/
  inner : o.escaped = true → 0 < o.span.stop ∧ o.innerSpan.fits source = true

namespace Occurrence

variable {source : Text}

/-- An escape is its core with a bracket more at each end. -/
theorem fits_of_core {o : Occurrence} (hspan : o.span.fits source = true)
    (hlt : o.span.start < o.span.stop) (hcore : o.core.fits source = true)
    (hcontent : ∀ c, o.content = some c → c.fits source = true) : o.Fits source := by
  refine ⟨hspan, hcontent, fun hescaped => ⟨by omega, ?_⟩⟩
  rwa [core, if_pos hescaped] at hcore

theorem fits_alone {b : Bracket} (hb : b.Proper) (hfits : b.Fits source) (arguments : Arguments)
    (form : Form) : (alone b arguments form).Fits source := by
  refine fits_of_core ?_ (alone_span hb arguments form).2.1 ?_ nofun
  · show (widen b.span b.isEscape).fits source = true
    unfold widen
    split
    · rename_i hescape
      obtain ⟨hlead, htrail⟩ := Bool.and_eq_true_iff.1 hescape
      have houter := hfits.outer
      rwa [Bracket.outer, hlead, htrail] at houter
    · exact hfits.span
  · rw [core_alone hb]
    exact hfits.span

theorem fits_between {b close : Bracket} (hb : b.Proper) (hclose : close.Proper)
    (hle : b.outer.stop ≤ close.outer.start) (hbFits : b.Fits source)
    (hcloseFits : close.Fits source) (arguments : Arguments) :
    (between b close arguments).Fits source := by
  have hbStop := b.span_stop_le_outer
  have hcloseStart := close.outer_start_le
  have hlt := hb.start_lt_stop
  have hcloseLt := hclose.start_lt_stop
  have hspan := (between_span hb hclose hle arguments).2.1
  refine fits_of_core ?_ hspan ?_ ?_
  · show (widen ⟨b.span.start, close.span.stop⟩ (b.lead && close.trail)).fits source = true
    unfold widen
    split
    · rename_i hescape
      obtain ⟨hlead, htrail⟩ := Bool.and_eq_true_iff.1 hescape
      have houter := Span.fits_hull hbFits.outer hcloseFits.outer
        (Nat.le_trans (Nat.le_of_lt hb.outer_start_lt)
          (Nat.le_trans hle (Nat.le_of_lt hclose.outer_start_lt)))
      rwa [Bracket.outer, Bracket.outer, hlead, htrail] at houter
    · exact Span.fits_hull hbFits.span hcloseFits.span (by omega)
  · rw [core_between hb]
    exact Span.fits_hull hbFits.span hcloseFits.span (by omega)
  · rintro c ⟨⟩
    exact Span.fits_gap hbFits.span hcloseFits.span (by omega)

end Occurrence

/-! ## Segments -/

namespace Segment

/-- The literal runs among the segments are runs of whole characters. -/
def LiteralsFit (source : Text) (segments : List Segment) : Prop :=
  ∀ span, .literal span ∈ segments → span.fits source = true

variable {source : Text} {a b : List Segment}

theorem LiteralsFit.append (ha : LiteralsFit source a) (hb : LiteralsFit source b) :
    LiteralsFit source (a ++ b) :=
  fun span hspan => (List.mem_append.1 hspan).elim (ha span) (hb span)

theorem LiteralsFit.cons {s : Segment} (hs : ∀ span, s ≠ .literal span)
    (h : LiteralsFit source a) : LiteralsFit source (s :: a) :=
  fun span hspan => h span ((List.mem_cons.1 hspan).resolve_left fun heq => hs span heq.symm)

theorem literalsFit_literalRun {start stop : Nat} (hle : stop ≤ source.length)
    (hstart : source.isBoundary start = true) (hstop : source.isBoundary stop = true) :
    LiteralsFit source (literalRun start stop) := by
  unfold literalRun
  split
  · rename_i hlt
    intro span hspan
    cases List.mem_singleton.1 hspan
    exact Span.fits_iff.2 ⟨Nat.le_of_lt hlt, hle, hstart, hstop⟩
  · exact nofun

theorem literalsFit_segmentsFrom {lo : Nat} {os : List Occurrence}
    (horder : Span.InOrder source.length lo (os.map (·.span)))
    (hlo : source.isBoundary lo = true) (hos : ∀ o ∈ os, o.span.fits source = true) :
    LiteralsFit source (Scan.segmentsFrom source.length lo os) := by
  induction os generalizing lo with
  | nil => exact literalsFit_literalRun (Nat.le_refl _) hlo (Text.isBoundary_length source)
  | cons o rest ih =>
    obtain ⟨ho, hrest⟩ := List.forall_mem_cons.1 hos
    obtain ⟨hle, hlen, hstart, hstop⟩ := Span.fits_iff.1 ho
    rw [segmentsFrom_cons]
    exact (literalsFit_literalRun (Nat.le_trans hle hlen) hlo hstart).append
      (.cons (fun span => nofun) (ih horder.2.2 hstop hrest))

/-- Splitting a run at boundaries gives runs of whole characters. -/
theorem literalsFit_splitLiteral {start stop : Nat} {pending : List Pending}
    (hpending : ∀ p ∈ pending, source.isBoundary p.anchor = true)
    (hstart : source.isBoundary start = true) (hstop : source.isBoundary stop = true)
    (hle : start ≤ stop) (hlen : stop ≤ source.length) :
    LiteralsFit source (splitLiteral start stop pending).1 ∧
      ∀ p ∈ (splitLiteral start stop pending).2, source.isBoundary p.anchor = true := by
  induction pending generalizing start with
  | nil => exact ⟨literalsFit_literalRun hlen hstart hstop, nofun⟩
  | cons p rest ih =>
    obtain ⟨hp, hrest⟩ := List.forall_mem_cons.1 hpending
    by_cases hlt : p.anchor < stop
    · have hcut : source.isBoundary (max p.anchor start) = true := by
        rcases Nat.le_total p.anchor start with h | h
        · rwa [Nat.max_eq_right h]
        · rwa [Nat.max_eq_left h]
      obtain ⟨hpieces, hlater⟩ := ih hrest hcut (by omega)
      rw [splitLiteral_of_lt hlt]
      refine ⟨?_, hlater⟩
      exact (literalsFit_literalRun (by omega) hstart hcut).append
        (.cons (fun span => nofun) hpieces)
    · rw [splitLiteral_of_le (Nat.le_of_not_lt hlt)]
      exact ⟨literalsFit_literalRun hlen hstart hstop, hpending⟩

theorem literalsFit_insertMarkers {segments : List Segment} {pending : List Pending}
    (hsegments : LiteralsFit source segments)
    (hpending : ∀ p ∈ pending, source.isBoundary p.anchor = true) :
    LiteralsFit source (insertMarkers segments pending) := by
  have hmarkers : ∀ ps : List Pending, LiteralsFit source (ps.map fun p => .marker p.k) := by
    intro ps span hspan
    obtain ⟨p, -, heq⟩ := List.mem_map.1 hspan
    cases heq
  induction segments generalizing pending with
  | nil => exact hmarkers pending
  | cons s rest ih =>
    have hrest : LiteralsFit source rest := fun span hspan =>
      hsegments span (List.mem_cons_of_mem _ hspan)
    cases s with
    | literal span =>
      obtain ⟨hle, hlen, hstart, hstop⟩ := Span.fits_iff.1 (hsegments span List.mem_cons_self)
      obtain ⟨hpieces, hlater⟩ := literalsFit_splitLiteral hpending hstart hstop hle hlen
      exact hpieces.append (ih hrest hlater)
    | tag o =>
      refine (hmarkers _).append (.cons (fun span => nofun) (ih hrest fun p hp => ?_))
      exact hpending p ((List.dropWhile_suffix _).subset hp)
    | marker k => exact .cons (fun span => nofun) (ih hrest hpending)

end Segment

/-! ## Elements -/

/-- What is cut out where an element stands. -/
structure Element.Fits (source : Text) (e : Element) : Prop where
  startTag : e.startTag.fits source = true
  endTag : ∀ s, e.endTag = some s → s.fits source = true
  content : e.content.fits source = true
  outer : e.outer.fits source = true

/-- An element that ends in the text and is cut at boundaries. -/
theorem Element.Sound.fits {source : Text} {e : Element} (h : e.Sound)
    (hcuts : e.CutsAt fun p => source.isBoundary p = true) (hle : e.stop ≤ source.length) :
    e.Fits source := by
  have hstart := h.start_lt
  have hstop := h.start_le_stop
  have hcontent := h.content_stop_le
  refine ⟨?_, fun s hs => ?_, ?_, ?_⟩
  · exact Span.fits_iff.2 ⟨Nat.le_of_lt hstart, by omega, hcuts.start, hcuts.startTag_stop⟩
  · obtain ⟨-, hlt, hend⟩ := h.endTag_bounds s hs
    obtain ⟨h1, h2⟩ := hcuts.endTag s hs
    exact Span.fits_iff.2 ⟨Nat.le_of_lt hlt, by omega, h1, h2⟩
  · exact Span.fits_iff.2 ⟨Nat.le_max_right _ _, by omega, hcuts.startTag_stop, hcuts.content_stop⟩
  · refine Span.fits_iff.2 ⟨?_, hle, hcuts.start, hcuts.stop⟩
    show e.startTag.start ≤ e.stop
    omega

/-! ## Main statement -/

/-- Whatever is cut out of a text while it is rendered is a run of whole characters, and whatever
is looked up by its number is there. -/
structure Sliceable (source : Text) (pairs : Text → Bool) : Prop where
  segment : ∀ s ∈ (Scan.ofText source pairs).segments, ∀ span, s.span? = some span →
    span.fits source = true
  occurrence : ∀ o ∈ (Scan.ofText source pairs).occurrences, o.Fits source
  /-- There is a byte in front of a tag that is doubled there. -/
  doubled : ∀ b ∈ Scan.tags source, b.lead = true → 0 < b.span.start
  token : ∀ t ∈ (Scan.ofText source pairs).markup, t.Fits source
  element : ∀ id e,
    (Document.ofMarkup source (Scan.ofText source pairs).markup).element? id = some e →
      e.Fits source
  /-- At any time, the elements that are open have been found. -/
  opened : ∀ before after, (Scan.ofText source pairs).markup = before ++ after →
    ∀ o ∈ (before.foldl (Document.Builder.step source) .empty).stack,
      ∃ e, (before.foldl (Document.Builder.step source) .empty).elements[o.id]? = some e ∧
        e.name = o.name
  parent : ∀ id e p,
    (Document.ofMarkup source (Scan.ofText source pairs).markup).element? id = some e →
      e.parent = some p →
      ∃ ep, (Document.ofMarkup source (Scan.ofText source pairs).markup).element? p = some ep
  anchor : ∀ o ∈ (Scan.ofText source pairs).occurrences, ∀ placement a,
    o.destination placement (Document.ofMarkup source (Scan.ofText source pairs).markup)
      ((Scan.ofText source pairs).occurrences.map (·.span)) = .anchor a →
      a ≤ source.length ∧ source.isBoundary a = true
  /-- What scanning the text cuts out. -/
  scanned : Span.AllFit source (Scan.slices source)
  /-- The words of a tag are among it. -/
  tagWords : ∀ b ∈ Scan.tags source, b.CutFrom source (Scan.slices source)
  /-- The names in a token are among it. -/
  tokenNames : ∀ t ∈ (Scan.ofText source pairs).markup, t.CutFrom source (Scan.slices source)
  /-- What is cut out if the text is read as a list of arguments. -/
  arguments : Span.AllFit source (Arguments.slices .endOfText (.ofText source 0))
  /-- What is copied between the texts of tags, once some of these are moved. -/
  copied : ∀ (σ : Type) (render : Rendering σ) (rules : Rules) (w w' : World σ)
    (placed : List Placed),
    rules.resolveAll render source (Document.ofMarkup source (Scan.ofText source pairs).markup)
        ((Scan.ofText source pairs).occurrences.map (·.span))
        (Scan.ofText source pairs).occurrences w = .ok placed w' →
      Segment.LiteralsFit source (Segment.insertMarkers (Scan.ofText source pairs).segments
        (Fragment.byAnchor (placed.filterMap Placed.fragment?)))

namespace Text.Regular

section

variable {source : Text} (h : source.Regular) (pairs : Text → Bool)

include h

theorem fits_of_mem_occurrences {o : Occurrence}
    (ho : o ∈ (Scan.ofText source pairs).occurrences) : o.Fits source := by
  rw [Scan.occurrences_ofText] at ho
  cases (Occurrence.pairing_ofBrackets pairs (Scan.tags source)).origin ho with
  | @single pre rest b arguments form he _ =>
    have hb : b ∈ Scan.tags source := by simp [he]
    exact Occurrence.fits_alone (Scan.proper_of_mem_tags hb) (h.fits_of_mem_tags hb) arguments form
  | @pair pre mid after b close arguments he _ _ _ _ =>
    have hb : b ∈ Scan.tags source := by simp [he]
    have hclose : close ∈ Scan.tags source := by simp [he]
    exact Occurrence.fits_between (Scan.proper_of_mem_tags hb) (Scan.proper_of_mem_tags hclose)
      (Scan.outer_stop_le he) (h.fits_of_mem_tags hb) (h.fits_of_mem_tags hclose) arguments

theorem literalsFit_segments : Segment.LiteralsFit source (Scan.ofText source pairs).segments := by
  rw [Scan.segments_ofText]
  refine Segment.literalsFit_segmentsFrom (Scan.occurrences_inOrder source pairs).1
    (isBoundary_zero source) fun o ho => ?_
  rw [← Scan.occurrences_ofText] at ho
  exact (h.fits_of_mem_occurrences pairs ho).span

theorem fits_of_mem_segments {s : Segment} (hs : s ∈ (Scan.ofText source pairs).segments)
    {span : Span} (hspan : s.span? = some span) : span.fits source = true := by
  cases s with
  | literal run => exact Option.some.inj hspan ▸ h.literalsFit_segments pairs run hs
  | tag o =>
    cases hspan
    exact (h.fits_of_mem_occurrences pairs (List.mem_filterMap.2 ⟨_, hs, rfl⟩)).span
  | marker k => cases hspan

omit pairs in
theorem isBoundary_of_mem_tokens {t : Token} (ht : t ∈ Scan.tokens source) :
    source.isBoundary t.span.start = true ∧ source.isBoundary t.span.stop = true :=
  (Span.fits_iff.1 (h.fits_of_mem_tokens ht).span).2.2

theorem fits_of_element {id : ElementId} {e : Element}
    (he : (Document.ofMarkup source (Scan.ofText source pairs).markup).element? id = some e) :
    e.Fits source := by
  have hinv := Document.inv_ofText source pairs
  have hsound : e.Sound := hinv.sound he
  have hcuts : e.CutsAt fun p => source.isBoundary p = true := by
    refine Document.cutsAt_ofMarkup (isBoundary_length source) (fun t ht => ?_) he
    rw [Scan.markup_ofText] at ht
    exact h.isBoundary_of_mem_tokens ht
  exact hsound.fits hcuts (hinv.closed he List.not_mem_nil)

variable {pairs} in
theorem isBoundary_of_anchor {o : Occurrence} {placement : Placement} {a : Nat}
    (ha : o.destination placement (Document.ofMarkup source (Scan.ofText source pairs).markup)
      ((Scan.ofText source pairs).occurrences.map (·.span)) = .anchor a) :
    source.isBoundary a = true :=
  Occurrence.anchor_of_cuts (P := fun p => source.isBoundary p = true) ha
    (isBoundary_length source) fun _ ht => h.isBoundary_of_mem_tokens ht

/-- The runs between the texts of tags are cut at anchors, which are boundaries. -/
theorem literalsFit_of_resolveAll {σ : Type} {render : Rendering σ} {rules : Rules}
    {w w' : World σ} {placed : List Placed}
    (hplaced : rules.resolveAll render source
        (Document.ofMarkup source (Scan.ofText source pairs).markup)
        ((Scan.ofText source pairs).occurrences.map (·.span))
        (Scan.ofText source pairs).occurrences w = .ok placed w') :
    Segment.LiteralsFit source (Segment.insertMarkers (Scan.ofText source pairs).segments
      (Fragment.byAnchor (placed.filterMap Placed.fragment?))) := by
  rw [Rules.resolveAll_eq] at hplaced
  generalize rules.resolutions render source _ _ _ w = res at hplaced
  cases res with
  | error e w => cases hplaced
  | tooDeep => cases hplaced
  | ok rs w =>
    cases hplaced
    rw [← Slot.map_placed_slots]
    refine Segment.literalsFit_insertMarkers (h.literalsFit_segments pairs) fun p hp => ?_
    obtain ⟨s, hs, ha⟩ := (Slot.carries_byAnchor source _).anchor_mem p hp
    obtain ⟨o, -, r, -, rfl⟩ := Slot.exists_of_mem_slots hs
    exact h.isBoundary_of_anchor (Occurrence.destination_of_anchor? ha)

end

end Text.Regular

/-- At any time the open elements have been found. -/
theorem Document.Builder.exists_of_open {source : Text} {pairs : Text → Bool}
    {before after : List Token} (hsplit : (Scan.ofText source pairs).markup = before ++ after)
    {o : OpenElement} (ho : o ∈ (before.foldl (step source) .empty).stack) :
    ∃ e, (before.foldl (step source) .empty).elements[o.id]? = some e ∧ e.name = o.name := by
  obtain ⟨pos, hinv, -⟩ := inv_of_split hsplit
  obtain ⟨e, he, hname, -⟩ := hinv.opened o ho
  exact ⟨e, he, hname⟩

/-- **No text is cut out of range.**  Whatever a string holds and whichever names take content, the
spans, boundaries and anchors that rendering it works with lie in it and between its characters. -/
theorem sliceable_ofString (s : String) (pairs : Text → Bool) :
    Sliceable (Text.ofString s) pairs := by
  have h := Text.regular_ofString s
  generalize Text.ofString s = source at h
  have hforest := Document.isForest_of_inv (Document.inv_ofText source pairs)
  have hstart : (Cursor.ofText source 0).Sound source source.length :=
    ⟨by rw [List.take_length]; exact Cursor.over_ofText source, Text.isBoundary_zero source⟩
  exact {
    segment := fun _ hs _ hspan => h.fits_of_mem_segments pairs hs hspan
    occurrence := fun _ ho => h.fits_of_mem_occurrences pairs ho
    doubled := fun _ hb hlead => (Scan.proper_of_mem_tags hb).one_le hlead
    token := fun _ ht => h.fits_of_mem_tokens ht
    element := fun _ _ he => h.fits_of_element pairs he
    opened := fun _ _ hsplit _ ho => Document.Builder.exists_of_open hsplit ho
    parent := fun _ _ _ he hp => by
      obtain ⟨ep, hep, -⟩ := hforest.inParent he hp
      exact ⟨ep, hep⟩
    anchor := fun _ _ _ _ ha =>
      ⟨(Occurrence.anchor_gap ha).le_length, h.isBoundary_of_anchor ha⟩
    scanned := h.fits_scanSlices
    tagWords := fun _ hb => Scan.cutFrom_of_mem_tags h hb
    tokenNames := fun _ ht => Scan.cutFrom_of_mem_tokens ht
    arguments := (h.front.sound_arguments _ hstart .empty).1
    copied := fun _ _ _ _ _ _ hplaced => h.literalsFit_of_resolveAll pairs hplaced }

end Shortcode
