import Shortcode.Proofs.NearestClose
import Shortcode.Proofs.Tiling

/-!
# Tags among tokens

A tag of ordinary text lies apart from every token and from the raw text behind it.  Any other tag
lies in an attribute value or in a raw text body, and its context says in which.  The same holds of
occurrences, but one of ordinary text may hold whole tokens in its content.

    o ∈ (Scan.ofText source pairs).occurrences →
      Situated source o.context o.span o.content                        (occurrence_situated)
-/

namespace Shortcode

/-- Where something that takes up `span` and encloses `content` lies among the tokens of a text, if
its context is true. -/
inductive Situated (source : Text) (context : Context) (span : Span) (content : Option Span) : Prop
  /-- A token lies in front of it, behind it or in its content. -/
  | body : context = .body →
      (∀ t ∈ Scan.tokens source, span.stop ≤ t.span.start ∨ (t.extent source).stop ≤ span.start ∨
        ∃ c, content = some c ∧ c.start ≤ t.span.start ∧ (t.extent source).stop ≤ c.stop) →
      Situated source context span content
  | value {tag : StartTag} {a : Attribute} {v : Span} {n : Nat} :
      .start tag ∈ Scan.tokens source → a ∈ tag.attributes → a.value = some v →
      context = .attributeValue n tag.name a.name → v.start ≤ span.start → span.stop ≤ v.stop →
      Situated source context span content
  | verbatim {tag : StartTag} {element : Text} {n : Nat} :
      .start tag ∈ Scan.tokens source → tag.rawText? = some element →
      context = .verbatim n element → tag.span.stop ≤ span.start →
      span.stop ≤ (Region.rawText source element tag.span.stop).stop →
      Situated source context span content

/-! ## Tokens -/

theorem Token.extent_of_rawText (source : Text) {element : Text} {tag : StartTag}
    (h : tag.rawText? = some element) :
    (Token.start tag).extent source =
      ⟨tag.span.start, (Region.rawText source element tag.span.stop).stop⟩ := by
  simp only [Token.extent, h]

/-- The value of an attribute lies in its start tag, behind the `<` and in front of the `>`. -/
theorem Token.Proper.value_bounds {tag : StartTag} (h : Token.Proper (.start tag)) {a : Attribute}
    {v : Span} (ha : a ∈ tag.attributes) (hv : a.value = some v) :
    tag.span.start < v.start ∧ v.start ≤ v.stop ∧ v.stop < tag.span.stop := by
  have hlt : tag.span.start < tag.span.stop := h.start_lt_stop
  have hin := (h.values_inOrder tag rfl).bounds (List.mem_filterMap.2 ⟨a, ha, hv⟩)
  have hspan : (Token.start tag).span = tag.span := rfl
  rw [hspan] at hin
  omega

theorem Piece.extents_sublist (source : Text) (items : List Piece) :
    ((items.filterMap Piece.token?).map (·.extent source)).Sublist
      (items.map (·.extent source)) := by
  induction items with
  | nil => exact .slnil
  | cons p rest ih =>
    cases p with
    | bracket b => exact ih.cons _
    | token t => exact ih.cons_cons _

namespace Scan

/-- The tokens follow each other with the raw text behind them. -/
theorem extents_inOrder (source : Text) :
    Span.InOrder source.length 0 ((tokens source).map (·.extent source)) := by
  obtain ⟨items, horder, -, -, htokens⟩ := exists_items source
  rw [htokens]
  exact horder.sublist (Piece.extents_sublist source items)

/-- Two tokens are the same, or the raw text behind one ends in front of the other. -/
theorem token_eq_or_apart {source : Text} {t t' : Token} (ht : t ∈ tokens source)
    (ht' : t' ∈ tokens source) :
    t = t' ∨ (t.extent source).stop ≤ t'.span.start ∨ (t'.extent source).stop ≤ t.span.start := by
  have h := (extents_inOrder source).eq_or_apart ht ht'
  rwa [t.extent_start, t'.extent_start] at h

end Scan

/-! ## Regions -/

namespace Region

theorem mem_ofTokens {source : Text} {r : Region} {n : Nat} {ts : List Token}
    (hr : r ∈ ofTokens source n ts) : ∃ t ∈ ts, ∃ m, r ∈ ofToken source m t := by
  induction ts generalizing n with
  | nil => cases hr
  | cons t rest ih =>
    rw [ofTokens] at hr
    rcases List.mem_append.1 hr with hr | hr
    · exact ⟨t, List.mem_cons_self, n, hr⟩
    · obtain ⟨t', ht', h⟩ := ih hr
      exact ⟨t', List.mem_cons_of_mem _ ht', h⟩

theorem mem_ofAttributes {source element : Text} {r : Region} {n : Nat} {as : List Attribute}
    (hr : r ∈ ofAttributes source element n as) :
    ∃ a ∈ as, a.value = some r.span ∧ ∃ m, r.context = .attributeValue m element a.name := by
  induction as generalizing n with
  | nil => cases hr
  | cons a rest ih =>
    have hrest : ∀ {m}, r ∈ ofAttributes source element m rest →
        ∃ a' ∈ a :: rest, a'.value = some r.span ∧
          ∃ m, r.context = .attributeValue m element a'.name := by
      intro m hm
      obtain ⟨a', ha', h⟩ := ih hm
      exact ⟨a', List.mem_cons_of_mem _ ha', h⟩
    rw [ofAttributes] at hr
    split at hr
    · exact hrest hr
    · rename_i v hv
      split at hr
      · rcases List.mem_cons.1 hr with rfl | hr
        · exact ⟨a, List.mem_cons_self, hv, _, rfl⟩
        · exact hrest hr
      · exact hrest hr

/-- What lies in a region is situated by the region's context. -/
theorem situated {source : Text} {r : Region} (hr : r ∈ Scan.regions source) {span : Span}
    (hstart : r.span.start ≤ span.start) (hstop : span.stop ≤ r.span.stop)
    (content : Option Span) : Situated source r.context span content := by
  obtain ⟨t, ht, m, hm⟩ := mem_ofTokens hr
  cases t with
  | finish name span => cases hm
  | opaqueText span => cases hm
  | start tag =>
    have hvalue : ∀ {n}, r ∈ ofAttributes source tag.name n tag.attributes →
        Situated source r.context span content := by
      intro n hn
      obtain ⟨a, ha, hv, _, hctx⟩ := mem_ofAttributes hn
      exact .value ht ha hv hctx hstart hstop
    rw [ofToken] at hm
    split at hm
    · exact hvalue hm
    · rename_i element hraw
      rcases List.mem_append.1 hm with hm | hm
      · exact hvalue hm
      · cases List.mem_singleton.1 hm
        exact .verbatim ht hraw rfl hstart hstop

end Region

/-! ## Tags -/

namespace Scan

theorem tag_situated {source : Text} {b : Bracket} (hb : b ∈ tags source) :
    Situated source b.context b.outer none := by
  obtain ⟨items, horder, hproper, htags, htokens⟩ := exists_items source
  rw [htags] at hb
  rcases Piece.mem_expand_bracket? hb with h | ⟨r, hr, hbr⟩
  · refine .body (hproper _ h).1 fun t ht => ?_
    rw [htokens] at ht
    obtain ⟨p, hp, he⟩ := List.mem_filterMap.1 ht
    cases p with
    | bracket b' => cases he
    | token t' =>
      cases he
      rw [← t.extent_start source]
      rcases horder.eq_or_apart h hp with heq | hle | hle
      · cases heq
      · exact .inl hle
      · exact .inr (.inl hle)
  · have hr : r ∈ regions source := by
      rw [regions, htokens]
      exact hr
    have hle := ((regions_inOrder source).bounds (List.mem_map_of_mem hr)).2.1
    obtain ⟨hstart, -, hstop⟩ :=
      (Region.brackets_inOrder source hle).bounds (List.mem_map_of_mem hbr)
    rw [(Region.brackets_context hbr).1]
    exact Region.situated hr hstart hstop none

end Scan

/-! ## Occurrences -/

namespace Bracket

theorem context_eq_of_closes {close opener : Bracket} (h : close.closes opener = true) :
    close.context = opener.context := by
  simp only [closes, Bool.and_eq_true, beq_iff_eq] at h
  exact h.1.2

end Bracket

namespace Scan

/-- Tags in order lie one behind the other. -/
theorem outer_stop_le {source : Text} {pre mid after : List Bracket} {b close : Bracket}
    (h : tags source = pre ++ b :: (mid ++ close :: after)) :
    b.outer.stop ≤ close.outer.start := by
  have horder := tags_inOrder source
  rw [h, Bracket.InOrder, List.map_append] at horder
  obtain ⟨m, -, -, -, hrest⟩ := Span.inOrder_append.1 horder
  exact (hrest.bounds (List.mem_map_of_mem (by simp))).1

/-- An open tag and its close tag are situated together. -/
theorem between_situated {source : Text} {pre mid after : List Bracket} {b close : Bracket}
    (h : tags source = pre ++ b :: (mid ++ close :: after)) (hclose : close.closes b = true)
    (arguments : Arguments) :
    Situated source b.context (Occurrence.between b close arguments).span
      (Occurrence.between b close arguments).content := by
  have hb : b ∈ tags source := by simp [h]
  have hc : close ∈ tags source := by simp [h]
  have hle := outer_stop_le h
  have hctx := Bracket.context_eq_of_closes hclose
  obtain ⟨hstart, -, hstop⟩ := Occurrence.between_span (proper_of_mem_tags hb)
    (proper_of_mem_tags hc) hle arguments
  rcases tag_cases hb with ⟨hbody, -⟩ | ⟨r, hr, hr1, hr2, -, -⟩
  · cases tag_situated hb with
    | value _ _ _ hv _ _ => exact nomatch hbody.symm.trans hv
    | verbatim _ _ hv _ _ => exact nomatch hbody.symm.trans hv
    | body _ hopen =>
      cases tag_situated hc with
      | value _ _ _ hv _ _ => exact nomatch (hctx.trans hbody).symm.trans hv
      | verbatim _ _ hv _ _ => exact nomatch (hctx.trans hbody).symm.trans hv
      | body _ hend =>
        refine .body hbody fun t ht => ?_
        have h1 := b.span_stop_le_outer
        have h2 := close.outer_start_le
        rcases hopen t ht with hlt | hlt | ⟨c, hn, -⟩
        · rcases hend t ht with hlt' | hlt' | ⟨c, hn, -⟩
          · exact .inl (Nat.le_trans hstop hlt')
          · exact .inr (.inr ⟨_, rfl, Nat.le_trans h1 hlt, Nat.le_trans hlt' h2⟩)
          · cases hn
        · exact .inr (.inl (Nat.le_trans hlt hstart))
        · cases hn
  · rcases tag_cases hc with ⟨hbody, -⟩ | ⟨r', hr', hr1', -, hr3', -⟩
    · exact absurd ((hr1.symm.trans hctx.symm).trans hbody) (Region.context_ne_body hr)
    · -- the two tags have one context and so lie in one region
      have heq : r' = r := Region.eq_of_context_eq hr' hr (by rw [← hr1', ← hr1, hctx])
      subst heq
      rw [hr1]
      exact Region.situated hr (Nat.le_trans hr2 hstart) (Nat.le_trans hstop hr3') _

/-- The content of an occurrence lies in it, between its tags. -/
theorem content_bounds {source : Text} {pairs : Text → Bool} {o : Occurrence}
    (ho : o ∈ (ofText source pairs).occurrences) {c : Span} (hc : o.content = some c) :
    o.span.start < c.start ∧ c.start ≤ c.stop ∧ c.stop < o.span.stop := by
  rw [occurrences_ofText] at ho
  have hcore := o.core_in_span
  have hin := ((Occurrence.pairing_ofBrackets pairs (tags source)).origin ho).content_bounds
    (tags_inOrder source) (fun _ => proper_of_mem_tags) hc
  omega

/-- Every occurrence is situated by its context. -/
theorem occurrence_situated {source : Text} {pairs : Text → Bool} {o : Occurrence}
    (ho : o ∈ (ofText source pairs).occurrences) : Situated source o.context o.span o.content := by
  rw [occurrences_ofText] at ho
  cases (Occurrence.pairing_ofBrackets pairs (tags source)).origin ho with
  | pair he _ _ hclose _ => exact between_situated he hclose _
  | @single pre rest b arguments form he _ =>
    have hb : b ∈ tags source := by simp [he]
    obtain ⟨hstart, -, hstop⟩ := Occurrence.alone_span (proper_of_mem_tags hb) arguments form
    show Situated source b.context (Occurrence.alone b arguments form).span none
    cases tag_situated hb with
    | body hctx htokens =>
      refine .body hctx fun t ht => ?_
      rcases htokens t ht with hle | hle | ⟨c, hn, -⟩
      · exact .inl (Nat.le_trans hstop hle)
      · exact .inr (.inl (Nat.le_trans hle hstart))
      · cases hn
    | value htag ha hv hctx h1 h2 =>
      exact .value htag ha hv hctx (Nat.le_trans h1 hstart) (Nat.le_trans hstop h2)
    | verbatim htag hraw hctx h1 h2 =>
      exact .verbatim htag hraw hctx (Nat.le_trans h1 hstart) (Nat.le_trans hstop h2)

end Scan

end Shortcode
