import Shortcode.Proofs.ElementEnds
import Shortcode.Proofs.Reassembly
import Shortcode.Proofs.TokenPlaces

/-!
# Relocation tears nothing

An anchor is a boundary of an element.  Elements start and end where tokens do, so an anchor lies in
no token and in no raw text body, and it is refused if it lies in a tag.  So a token that has no tag
in it and lies in none is written byte after byte, with nothing put in between.

    o.destination placement d spans = .anchor a → Scan.Gap source pairs a            (anchor_gap)
    walk slots hi 0 = front ++ (bytes lo (up - lo) ++ back)                   (Fit.exists_walk_run)
-/

namespace Shortcode

/-! ## Gaps -/

namespace Scan

/-- An offset between tokens and between raw text bodies. -/
structure BetweenTokens (source : Text) (a : Nat) : Prop where
  token : ∀ t ∈ tokens source, ¬ (t.span.start < a ∧ a < t.span.stop)
  rawText : ∀ tag element, .start tag ∈ tokens source → tag.rawText? = some element →
    ¬ (tag.span.stop < a ∧ a < (Region.rawText source element tag.span.stop).stop)

theorem extent_bounds {source : Text} {t : Token} (ht : t ∈ tokens source) :
    t.span.start < t.span.stop ∧ t.span.stop ≤ (t.extent source).stop ∧
      (t.extent source).stop ≤ source.length :=
  ⟨(proper_of_mem_tokens ht).start_lt_stop, t.span_stop_le_extent source,
    ((extents_inOrder source).bounds (List.mem_map_of_mem ht)).2.2⟩

/-- What lies apart from all extents is between tokens. -/
theorem betweenTokens_of_apart {source : Text} {a : Nat}
    (h : ∀ t ∈ tokens source, a ≤ t.span.start ∨ a = t.span.stop ∨ (t.extent source).stop ≤ a) :
    BetweenTokens source a where
  token := fun t ht => by
    have hbounds := extent_bounds ht
    rcases h t ht with hle | heq | hle <;> omega
  rawText := fun tag element ht hraw => by
    have hbounds := extent_bounds ht
    have hcases := h _ ht
    rw [Token.extent_of_rawText _ hraw] at hbounds hcases
    have hspan : (Token.start tag).span = tag.span := rfl
    rw [hspan] at hbounds hcases
    dsimp only at hbounds hcases
    rcases hcases with hle | heq | hle <;> omega

theorem betweenTokens_length (source : Text) : BetweenTokens source source.length :=
  betweenTokens_of_apart fun _ ht => .inr (.inr (extent_bounds ht).2.2)

/-- Tokens start and end between tokens. -/
theorem betweenTokens_of_mem {source : Text} {t : Token} (ht : t ∈ tokens source) :
    BetweenTokens source t.span.start ∧ BetweenTokens source t.span.stop := by
  have hbounds := extent_bounds ht
  constructor
  · refine betweenTokens_of_apart fun t' ht' => ?_
    have hbounds' := extent_bounds ht'
    rcases token_eq_or_apart ht ht' with rfl | hle | hle
    · exact .inl (Nat.le_refl _)
    · exact .inl (by omega)
    · exact .inr (.inr hle)
  · refine betweenTokens_of_apart fun t' ht' => ?_
    have hbounds' := extent_bounds ht'
    rcases token_eq_or_apart ht ht' with rfl | hle | hle
    · exact .inr (.inl rfl)
    · exact .inl (by omega)
    · exact .inr (.inr (by omega))

/-- An offset where a text can be put in without tearing a token, a raw text body or a tag. -/
structure Gap (source : Text) (pairs : Text → Bool) (a : Nat) : Prop where
  le_length : a ≤ source.length
  betweenTokens : BetweenTokens source a
  betweenTags : ∀ o ∈ (ofText source pairs).occurrences, ¬ (o.span.start < a ∧ a < o.span.stop)

end Scan

/-! ## Anchors -/

namespace Occurrence

/-- Where the text of an occurrence that asks for `placement` goes when it goes to `a`, and where
such an occurrence cannot stand. -/
structure MovesTo (source : Text) (o : Occurrence) (placement : Placement) (a : Nat) : Prop where
  side : (placement = .before ∧ a ≤ o.span.start) ∨ (placement = .after ∧ o.span.stop ≤ a)
  context : o.context = .body
  notInValue : ∀ tag attr v, .start tag ∈ Scan.tokens source → attr ∈ tag.attributes →
    attr.value = some v → ¬ (v.start ≤ o.span.start ∧ o.span.stop ≤ v.stop)
  notInRawText : ∀ tag element, .start tag ∈ Scan.tokens source → tag.rawText? = some element →
    ¬ (tag.span.stop ≤ o.span.start ∧
      o.span.stop ≤ (Region.rawText source element tag.span.stop).stop)

section

variable {source : Text} {pairs : Text → Bool} {o : Occurrence} {placement : Placement} {a : Nat}

/-- The block around an occurrence starts in front of it and ends behind its start. -/
theorem block_around {pos : Nat} {id : ElementId} {e : Element}
    (hid : (Document.ofMarkup source (Scan.ofText source pairs).markup).enclosingBlock pos =
      some id)
    (he : (Document.ofMarkup source (Scan.ofText source pairs).markup).element? id = some e) :
    e.startTag.start < pos ∧ pos < e.stop := by
  have hinv := Document.inv_ofText source pairs
  rw [Document.enclosingBlock_eq_getLast? hinv] at hid
  obtain ⟨e', he', hp⟩ := Document.mem_idsWhere.1 (List.mem_of_getLast? hid)
  cases he.symm.trans he'
  obtain ⟨hstart, hstop⟩ := Span.contains_iff.1 (Bool.and_eq_true_iff.1 hp).2
  have hstart : e.startTag.stop ≤ pos := hstart
  have hsound : e.Sound := hinv.sound he
  have hlt := hsound.start_lt
  have hcontent := hsound.content_stop_le
  omega

/-- What has an anchor is moved there. -/
theorem destination_of_anchor? {d : Document} {spans : List Span}
    (h : o.anchor? placement d spans = some a) : o.destination placement d spans = .anchor a := by
  rw [← destination_anchor?] at h
  cases hdest : o.destination placement d spans with
  | anchor b =>
    rw [hdest] at h
    cases h
    rfl
  | inline =>
    rw [hdest] at h
    cases h
  | refused why =>
    rw [hdest] at h
    cases h

variable (ho : o ∈ (Scan.ofText source pairs).occurrences)
  (ha : o.destination placement (Document.ofMarkup source (Scan.ofText source pairs).markup)
    ((Scan.ofText source pairs).occurrences.map (·.span)) = .anchor a)

include ha

theorem exists_block_of_anchor : o.context.isBody = true ∧ ∃ id e,
    (Document.ofMarkup source (Scan.ofText source pairs).markup).enclosingBlock o.span.start =
      some id ∧
    (Document.ofMarkup source (Scan.ofText source pairs).markup).element? id = some e ∧
    placement.boundary? e = some a ∧
    ∀ o' ∈ (Scan.ofText source pairs).occurrences, ¬ (o'.span.start < a ∧ a < o'.span.stop) := by
  have hanchor := congrArg Destination.anchor? ha
  rw [destination_anchor?] at hanchor
  obtain ⟨hbody, id, e, hid, he, hb, hclear⟩ := anchor?_eq_some_iff.1 hanchor
  exact ⟨hbody, id, e, hid, he, hb, fun o' ho' => hclear o'.span (List.mem_map_of_mem ho')⟩

/-- What holds where tokens start and end and where the text ends holds at an anchor. -/
theorem anchor_of_cuts {P : Nat → Prop} (hlength : P source.length)
    (htokens : ∀ t ∈ Scan.tokens source, P t.span.start ∧ P t.span.stop) : P a := by
  obtain ⟨-, id, e, -, he, hb, -⟩ := exists_block_of_anchor ha
  have hcuts : e.CutsAt P := by
    refine Document.cutsAt_ofMarkup hlength (fun t ht => ?_) he
    rw [Scan.markup_ofText] at ht
    exact htokens t ht
  cases placement with
  | inline => cases hb
  | split => cases hb
  | before =>
    cases hb
    exact hcuts.start
  | after =>
    cases hb
    exact hcuts.stop

/-- Anchors are gaps. -/
theorem anchor_gap : Scan.Gap source pairs a := by
  obtain ⟨-, id, e, -, he, hb, hclear⟩ := exists_block_of_anchor ha
  have hforest := Document.isForest_of_inv (Document.inv_ofText source pairs)
  have hbetween : Scan.BetweenTokens source a := anchor_of_cuts ha
    (Scan.betweenTokens_length source) fun t ht => Scan.betweenTokens_of_mem ht
  exact ⟨Slot.boundary?_le hforest he hb, hbetween, hclear⟩

include ho

theorem anchor_movesTo : o.MovesTo source placement a := by
  obtain ⟨hbody, id, e, hid, he, hb, hclear⟩ := exists_block_of_anchor ha
  have hlt : o.span.start < o.span.stop :=
    (Scan.occurrences_inOrder source pairs).2 o (Scan.occurrences_ofText source pairs ▸ ho)
  have haround := block_around hid he
  have hown := hclear o ho
  -- an occurrence of ordinary text lies apart from tokens or around them
  obtain ⟨hcontext, htokens⟩ : o.context = .body ∧ ∀ t ∈ Scan.tokens source,
      o.span.stop ≤ t.span.start ∨ (t.extent source).stop ≤ o.span.start ∨
        o.span.start < t.span.start := by
    cases Scan.occurrence_situated ho with
    | body hcontext htokens =>
      refine ⟨hcontext, fun t ht => ?_⟩
      rcases htokens t ht with hle | hle | ⟨c, hc, hle, -⟩
      · exact .inl hle
      · exact .inr (.inl hle)
      · have hin := (Scan.content_bounds ho hc).1
        exact .inr (.inr (by omega))
    | value _ _ _ hcontext _ _ =>
      rw [hcontext] at hbody
      cases hbody
    | verbatim _ _ hcontext _ _ =>
      rw [hcontext] at hbody
      cases hbody
  refine ⟨?_, hcontext, fun tag attr v htag hattr hv hin => ?_, fun tag element htag hraw hin => ?_⟩
  · cases placement with
    | inline => cases hb
    | split => cases hb
    | before =>
      cases hb
      exact .inl ⟨rfl, by omega⟩
    | after =>
      cases hb
      exact .inr ⟨rfl, by omega⟩
  · have hvalue := (Scan.proper_of_mem_tokens htag).value_bounds hattr hv
    have hbounds := Scan.extent_bounds htag
    have hcases := htokens _ htag
    have hspan : (Token.start tag).span = tag.span := rfl
    rw [hspan] at hcases hbounds
    omega
  · have hbounds := Scan.extent_bounds htag
    have hcases := htokens _ htag
    rw [Token.extent_of_rawText _ hraw] at hcases hbounds
    have hspan : (Token.start tag).span = tag.span := rfl
    rw [hspan] at hcases hbounds
    dsimp only at hcases hbounds
    omega

end

end Occurrence

/-! ## Runs of bytes -/

namespace Slot

/-- The bytes from `lo` on, `n` of them. -/
def bytes (lo n : Nat) : List Emission := (List.range' lo n).map .byte

theorem flatMap_bytes (source : Text) (slots : List Slot) (lo n : Nat) :
    (bytes lo n).flatMap (Emission.write source slots) = (Span.mk lo (lo + n)).slice source := by
  induction n generalizing lo with
  | zero => exact (Segment.slice_of_le (Nat.le_refl lo)).symm
  | succ n ih =>
    have hstop : lo + 1 + n = lo + (n + 1) := by omega
    rw [bytes, List.range'_succ, List.map_cons, List.flatMap_cons, ← bytes, ih, hstop]
    exact (Segment.slice_succ (by omega)).symm

theorem flatMap_bytes_span (source : Text) (slots : List Slot) {s : Span}
    (h : s.start ≤ s.stop) :
    (bytes s.start s.length).flatMap (Emission.write source slots) = s.slice source := by
  have hstop : s.start + s.length = s.stop := by
    unfold Span.length
    omega
  rw [flatMap_bytes, hstop]

/-- A run of bytes apart from the slots, into which nothing is moved, is written in one piece. -/
theorem Fit.exists_walk_run {hi : Nat} {slots : List Slot} (h : Fit hi slots) {lo up : Nat}
    (hlt : lo < up) (hup : up ≤ hi)
    (hslots : ∀ s ∈ slots, s.span.stop ≤ lo ∨ up ≤ s.span.start)
    (hmoved : ∀ s ∈ slots, ∀ a, s.anchor = some a → ¬ (lo < a ∧ a < up)) :
    ∃ front back, walk slots hi 0 = front ++ (bytes lo (up - lo) ++ back) := by
  -- from an offset in the run on, the rest of the run comes first
  have hwalk := h.walk_induction (motive := fun pos es =>
    (pos ≤ lo → ∃ front back, es = front ++ (bytes lo (up - lo) ++ back)) ∧
      (lo < pos → pos ≤ up → ∃ back, es = bytes pos (up - pos) ++ back))
    ?stop ?byte ?tag (Nat.zero_le hi) (clear_zero slots)
  · exact hwalk.1 (Nat.zero_le lo)
  · refine ⟨fun hle => absurd hle (by omega), fun _ hle => ⟨(movedTo slots hi).map .text, ?_⟩⟩
    rw [show up - hi = 0 by omega]
    rfl
  · intro pos rest _ _ _ ih
    have hcons : ∀ back, pos < up → rest = bytes (pos + 1) (up - (pos + 1)) ++ back →
        .byte pos :: rest = bytes pos (up - pos) ++ back := by
      intro back hpos heq
      rw [heq, bytes, bytes, show up - pos = up - (pos + 1) + 1 by omega, List.range'_succ]
      rfl
    constructor
    · intro hle
      rcases Nat.lt_or_eq_of_le hle with hpos | rfl
      · obtain ⟨front, back, heq⟩ := ih.1 hpos
        exact ⟨(movedTo slots pos).map .text ++ .byte pos :: front, back, by rw [heq]; simp⟩
      · obtain ⟨back, heq⟩ := ih.2 (Nat.lt_succ_self pos) hlt
        exact ⟨_, back, congrArg (_ ++ ·) (hcons back hlt heq)⟩
    · intro hpos hle
      rcases Nat.lt_or_eq_of_le hle with hin | rfl
      · have hnone : movedTo slots pos = [] := by
          apply List.eq_nil_iff_forall_not_mem.2
          intro i hi
          obtain ⟨s, hs, ha⟩ := mem_movedTo.1 hi
          exact hmoved s (List.mem_of_getElem? hs) pos ha ⟨hpos, hin⟩
        obtain ⟨back, heq⟩ := ih.2 (by omega) hin
        exact ⟨back, by rw [hnone]; exact hcons back hin heq⟩
      · exact ⟨_, by rw [Nat.sub_self]; rfl⟩
  · intro pos rest i s hs hstart hspan hstop ih
    have hcases := hslots s (List.mem_of_getElem? hs)
    constructor
    · intro hle
      obtain ⟨front, back, heq⟩ := ih.1 (by omega)
      exact ⟨(movedTo slots pos).map .text ++ (s.emission i ++ front), back, by rw [heq]; simp⟩
    · intro hpos hle
      exact ⟨_, by rw [show up - pos = 0 by omega]; rfl⟩

end Slot

/-- The slots of a text, with what its tags are resolved to. -/
def Scan.slots (source : Text) (pairs : Text → Bool) (rs : List Resolved) : List Slot :=
  List.zipWith
    (Slot.of (Document.ofMarkup source (ofText source pairs).markup)
      ((ofText source pairs).occurrences.map (·.span)))
    (ofText source pairs).occurrences rs

namespace Rules

variable {σ : Type} {render : Rendering σ} {rules : Rules} {source : Text} {pairs : Text → Bool}

/-- What a rendering without a failure writes. -/
theorem exists_resolutions_of_ok {w w' : World σ} {out : Text}
    (h : rules.renderSegments render source (Scan.ofText source pairs).segments
      (Document.ofMarkup source (Scan.ofText source pairs).markup) w = .ok out w') :
    ∃ rs, rules.resolutions render source
        (Document.ofMarkup source (Scan.ofText source pairs).markup)
        ((Scan.ofText source pairs).occurrences.map (·.span))
        (Scan.ofText source pairs).occurrences w = .ok rs w' ∧
      rs.length = (Scan.ofText source pairs).occurrences.length ∧
      out = (Slot.walk (Scan.slots source pairs rs) source.length 0).flatMap
        (Emission.write source (Scan.slots source pairs rs)) := by
  rw [renderSegments_eq_map] at h
  generalize hfound : (Scan.ofText source pairs).segments.filterMap Segment.occurrence? = os at h
  have hos : os = (Scan.ofText source pairs).occurrences := hfound.symm
  subst hos
  rw [resolveAll_eq] at h
  generalize hres : rules.resolutions render source _ _ _ w = res at h
  cases res with
  | error e w => cases h
  | tooDeep => cases h
  | ok rs w =>
    have hlen := length_of_resolutions hres
    have hassemble := Slot.assemble_eq_walk (Slot.fit_slots source pairs hlen)
      (Slot.map_span_slots _ _ hlen).symm
    rw [Slot.map_placed_slots, ← Scan.segments_eq_segmentsFrom] at hassemble
    cases h
    exact ⟨rs, rfl, hlen, hassemble⟩

end Rules

/-! ## Tokens and tags -/

/-- Whether a tag lies in a token or around it. -/
def Occurrence.Nests (o : Occurrence) (t : Token) : Prop :=
  (t.span.start ≤ o.span.start ∧ o.span.stop ≤ t.span.stop) ∨
    (o.span.start ≤ t.span.start ∧ t.span.stop ≤ o.span.stop)

/-- A tag lies in a token, around it or apart from it. -/
theorem Scan.nests_or_apart {source : Text} {pairs : Text → Bool} {o : Occurrence}
    (ho : o ∈ (ofText source pairs).occurrences) {t : Token} (ht : t ∈ tokens source) :
    o.Nests t ∨ o.span.stop ≤ t.span.start ∨ t.span.stop ≤ o.span.start := by
  have hbounds := extent_bounds ht
  cases occurrence_situated ho with
  | body _ htokens =>
    rcases htokens t ht with hle | hle | ⟨c, hc, h1, h2⟩
    · exact .inr (.inl hle)
    · exact .inr (.inr (by omega))
    · have hin := content_bounds ho hc
      exact .inl (.inr ⟨by omega, by omega⟩)
  | @value tag a v n htag ha hv _ h1 h2 =>
    have hvalue := (proper_of_mem_tokens htag).value_bounds ha hv
    have hbounds' := extent_bounds htag
    have hspan : (Token.start tag).span = tag.span := rfl
    rcases token_eq_or_apart ht htag with rfl | hle | hle
    · exact .inl (.inl ⟨by rw [hspan]; omega, by rw [hspan]; omega⟩)
    · rw [hspan] at hle
      exact .inr (.inr (by omega))
    · rw [hspan] at hbounds'
      exact .inr (.inl (by omega))
  | @verbatim tag element n htag hraw _ h1 h2 =>
    have hbounds' := extent_bounds htag
    have hapart := token_eq_or_apart ht htag
    have hspan : (Token.start tag).span = tag.span := rfl
    rw [Token.extent_of_rawText _ hraw, hspan] at hbounds' hapart
    dsimp only at hbounds' hapart
    rcases hapart with rfl | hle | hle
    · exact .inr (.inr h1)
    · exact .inr (.inr (by omega))
    · exact .inr (.inl (by omega))

/-! ## Main statement -/

/-- **Relocation tears nothing.**  A text that is moved goes to a gap between tokens, raw text
bodies and tags, on the side that was asked for, and its tag stands in ordinary text.  So a token
that no tag lies in or around is written in one piece. -/
theorem relocation_tears_nothing (source : Text) (pairs : Text → Bool) :
    let scan := Scan.ofText source pairs
    let d := Document.ofMarkup source scan.markup
    let spans := scan.occurrences.map (·.span)
    (∀ o ∈ scan.occurrences, ∀ placement a, o.destination placement d spans = .anchor a →
      Scan.Gap source pairs a ∧ o.MovesTo source placement a) ∧
    ∀ (σ : Type) (render : Rendering σ) (rules : Rules) (w w' : World σ) (out : Text),
      rules.renderSegments render source scan.segments d w = .ok out w' →
      ∃ rs, rules.resolutions render source d spans scan.occurrences w = .ok rs w' ∧
        let slots := Scan.slots source pairs rs
        let written := Slot.walk slots source.length 0
        out = written.flatMap (Emission.write source slots) ∧
        ∀ t ∈ scan.markup, (∀ o ∈ scan.occurrences, ¬ o.Nests t) →
          ∃ front back,
            written = front ++ (Slot.bytes t.span.start t.span.length ++ back) ∧
            out = front.flatMap (Emission.write source slots) ++
              (t.span.slice source ++ back.flatMap (Emission.write source slots)) := by
  intro scan d spans
  refine ⟨fun o ho placement a ha =>
    ⟨Occurrence.anchor_gap ha, Occurrence.anchor_movesTo ho ha⟩, ?_⟩
  intro σ render rules w w' out hout
  obtain ⟨rs, hres, hlen, hwritten⟩ := Rules.exists_resolutions_of_ok hout
  refine ⟨rs, hres, hwritten, fun t ht hnests => ?_⟩
  rw [Scan.markup_ofText] at ht
  have hbounds := Scan.extent_bounds ht
  have hslots : ∀ s ∈ Scan.slots source pairs rs,
      s.span.stop ≤ t.span.start ∨ t.span.stop ≤ s.span.start := by
    intro s hs
    obtain ⟨o, ho, r, -, rfl⟩ := Slot.exists_of_mem_slots hs
    exact (Scan.nests_or_apart ho ht).resolve_left (hnests o ho)
  have hmoved : ∀ s ∈ Scan.slots source pairs rs, ∀ a, s.anchor = some a →
      ¬ (t.span.start < a ∧ a < t.span.stop) := by
    intro s hs a ha
    obtain ⟨o, ho, r, -, rfl⟩ := Slot.exists_of_mem_slots hs
    have hgap : Scan.Gap source pairs a :=
      Occurrence.anchor_gap (Occurrence.destination_of_anchor? ha)
    exact hgap.betweenTokens.token t ht
  obtain ⟨front, back, hwalk⟩ := (Slot.fit_slots source pairs hlen).exists_walk_run hbounds.1
    (by omega) hslots hmoved
  refine ⟨front, back, hwalk, ?_⟩
  calc out = (Slot.walk (Scan.slots source pairs rs) source.length 0).flatMap _ := hwritten
    _ = (front ++ (Slot.bytes t.span.start t.span.length ++ back)).flatMap _ :=
      congrArg (List.flatMap _) hwalk
    _ = _ := by
      rw [List.flatMap_append, List.flatMap_append,
        Slot.flatMap_bytes_span source _ (Nat.le_of_lt hbounds.1)]

/-- A text moved out of a block stands in front of its start tag or behind its end tag. -/
example :
    (let source := Text.ofString "x<p>[t]</p>y";
    let scan := Scan.ofText source fun _ => true;
    let moved := fun placement => scan.occurrences.map fun o =>
      o.destination placement (Document.ofMarkup source scan.markup)
        (scan.occurrences.map (·.span));
    moved .before = [.anchor 1] ∧ moved .after = [.anchor 11] ∧ moved .inline = [.inline]) := by
  decide +kernel

end Shortcode
