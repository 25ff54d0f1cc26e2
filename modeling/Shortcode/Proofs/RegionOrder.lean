import Mathlib.Data.List.Nodup
import Shortcode.Proofs.ScanOrder

/-!
# One context for each region

The regions of a text are numbered from 1 and do not overlap, and no tag of ordinary text stands in
one of them.  The context of a tag therefore says exactly in which region it stands:

    b.context = b'.context ↔ regionAt source b.span.start = regionAt source b'.span.start
                                                              (context_eq_iff_regionAt_eq)
-/

namespace Shortcode

/-- The number of a region; ordinary text has none. -/
def Context.number? : Context → Option Nat
  | .body => none
  | .verbatim n _ => some n
  | .attributeValue n _ _ => some n

namespace Region

/-! ## Numbers -/

theorem ofAttributes_numbers (source element : Text) (n : Nat) (as : List Attribute) :
    (ofAttributes source element n as).map (·.context.number?) =
      (List.range' (n + 1) (ofAttributes source element n as).length).map some := by
  induction as generalizing n with
  | nil => rfl
  | cons a rest ih =>
    rw [ofAttributes]
    cases a.value with
    | none => exact ih n
    | some v =>
      dsimp only
      split
      · rw [List.map_cons, ih, List.length_cons, List.range'_succ, List.map_cons]
        rfl
      · exact ih n

theorem ofToken_numbers (source : Text) (n : Nat) (t : Token) :
    (ofToken source n t).map (·.context.number?) =
      (List.range' (n + 1) (ofToken source n t).length).map some := by
  cases t with
  | finish name span => rfl
  | opaqueText span => rfl
  | start tag =>
    rw [ofToken]
    split
    · exact ofAttributes_numbers source tag.name n tag.attributes
    · rw [List.map_append, ofAttributes_numbers, List.length_append, ← List.range'_append_1,
        List.map_append]
      congr 1
      show [some _] = [some _]
      rw [Nat.add_right_comm]

/-- Regions are numbered one after the other. -/
theorem ofTokens_numbers (source : Text) (n : Nat) (ts : List Token) :
    (ofTokens source n ts).map (·.context.number?) =
      (List.range' (n + 1) (ofTokens source n ts).length).map some := by
  induction ts generalizing n with
  | nil => rfl
  | cons t rest ih =>
    rw [ofTokens, List.map_append, ofToken_numbers, ih, List.length_append, ← List.range'_append_1,
      List.map_append, Nat.add_right_comm]

/-- No two regions have one context. -/
theorem eq_of_context_eq {source : Text} {n : Nat} {ts : List Token} {r r' : Region}
    (hr : r ∈ ofTokens source n ts) (hr' : r' ∈ ofTokens source n ts)
    (h : r.context = r'.context) : r = r' := by
  have hnodup : ((ofTokens source n ts).map (·.context.number?)).Nodup := by
    rw [ofTokens_numbers]
    exact List.Nodup.map (fun _ _ => Option.some.inj) List.nodup_range'
  exact List.inj_on_of_nodup_map hnodup hr hr' (congrArg Context.number? h)

theorem context_ne_body {source : Text} {n : Nat} {ts : List Token} {r : Region}
    (hr : r ∈ ofTokens source n ts) : r.context ≠ .body := by
  intro h
  have hmem := List.mem_map_of_mem (f := fun r : Region => r.context.number?) hr
  rw [ofTokens_numbers, h] at hmem
  obtain ⟨k, -, hk⟩ := List.mem_map.1 hmem
  cases hk

/-! ## Places -/

theorem ofTokens_inOrder {source : Text} {hi lo : Nat} {items : List Piece} (n : Nat)
    (h : Span.InOrder hi lo (items.map (·.extent source))) (hp : ∀ p ∈ items, p.Proper) :
    Span.InOrder hi lo ((ofTokens source n (items.filterMap Piece.token?)).map span) := by
  induction items generalizing lo n with
  | nil => exact h
  | cons p rest ih =>
    obtain ⟨h1, h2, h3⟩ := h
    have hrest := fun n => ih n h3 fun q hq => hp q (List.mem_cons_of_mem _ hq)
    cases p with
    | bracket b => exact (hrest n).mono_left (Nat.le_trans h1 h2)
    | token t =>
      have ht : t.Proper := hp _ List.mem_cons_self
      rw [Piece.filterMap_token?_token, ofTokens, List.map_append]
      refine Span.InOrder.append ?_ (hrest _)
      refine (ofToken_inOrder source n ht).mono_left ?_
      rw [← t.extent_start source]
      exact h1

/-- A tag of ordinary text stands in no region. -/
theorem notMem_of_bracket_mem {source : Text} {hi lo : Nat} {items : List Piece} {n : Nat}
    (h : Span.InOrder hi lo (items.map (·.extent source))) (hp : ∀ p ∈ items, p.Proper)
    {b : Bracket} (hb : .bracket b ∈ items) {r : Region}
    (hr : r ∈ ofTokens source n (items.filterMap Piece.token?)) :
    b.outer.stop ≤ r.span.start ∨ r.span.stop ≤ b.outer.start := by
  induction items generalizing lo n with
  | nil => cases hb
  | cons p rest ih =>
    obtain ⟨h1, h2, h3⟩ := h
    have hp' : ∀ q ∈ rest, q.Proper := fun q hq => hp q (List.mem_cons_of_mem _ hq)
    cases p with
    | bracket b' =>
      rw [Piece.filterMap_token?_bracket] at hr
      rcases List.mem_cons.1 hb with he | hb
      · cases he
        exact .inl ((ofTokens_inOrder n h3 hp').bounds (List.mem_map_of_mem hr)).1
      · exact ih h3 hp' hb hr
    | token t =>
      have hb : .bracket b ∈ rest := by simpa using hb
      rw [Piece.filterMap_token?_token, ofTokens] at hr
      rcases List.mem_append.1 hr with hr | hr
      · have ht : t.Proper := hp _ List.mem_cons_self
        have hin := ((ofToken_inOrder source n ht).bounds (List.mem_map_of_mem hr)).2.2
        have hafter : (t.extent source).stop ≤ b.outer.start :=
          (h3.bounds (List.mem_map_of_mem hb)).1
        exact .inr (Nat.le_trans hin hafter)
      · exact ih h3 hp' hb hr

end Region

/-! ## The region of a tag -/

namespace Scan

/-- The region that holds the offset `pos`; none in ordinary text. -/
def regionAt (source : Text) (pos : Nat) : Option Span :=
  ((regions source).find? (·.span.contains pos)).map (·.span)

theorem regions_inOrder (source : Text) :
    Span.InOrder source.length 0 ((regions source).map Region.span) := by
  obtain ⟨items, horder, hproper, -, htokens⟩ := exists_items source
  rw [regions, htokens]
  exact Region.ofTokens_inOrder 0 horder hproper

theorem regionAt_eq_some {source : Text} {r : Region} (hr : r ∈ regions source) {pos : Nat}
    (hstart : r.span.start ≤ pos) (hstop : pos < r.span.stop) :
    regionAt source pos = some r.span := by
  rw [regionAt]
  cases hfind : (regions source).find? (·.span.contains pos) with
  | none =>
    have := List.find?_eq_none.1 hfind r hr
    exact absurd (Span.contains_iff.2 ⟨hstart, hstop⟩) this
  | some r' =>
    have hin := List.find?_some hfind
    simp only [Span.contains_iff] at hin
    rcases (regions_inOrder source).eq_or_apart hr (List.mem_of_find?_eq_some hfind) with
      rfl | h | h
    · rfl
    · omega
    · omega

/-- A tag stands in ordinary text, outside all regions, or in one region, whose context it has. -/
theorem tag_cases {source : Text} {b : Bracket} (hb : b ∈ tags source) :
    (b.context = .body ∧ regionAt source b.span.start = none) ∨
      ∃ r ∈ regions source, b.context = r.context ∧ r.span.start ≤ b.outer.start ∧
        b.outer.stop ≤ r.span.stop ∧ regionAt source b.span.start = some r.span := by
  have hproper := proper_of_mem_tags hb
  have h1 := b.outer_start_le
  have h2 := b.span_stop_le_outer
  have h3 := hproper.start_lt_stop
  obtain ⟨items, horder, hitems, htags, htokens⟩ := exists_items source
  rw [htags] at hb
  rcases Piece.mem_expand_bracket? hb with h | ⟨r, hr, hbr⟩
  · refine .inl ⟨(hitems _ h).1, ?_⟩
    rw [regionAt, Option.map_eq_none_iff, List.find?_eq_none]
    intro r hr
    rw [regions, htokens] at hr
    have := Region.notMem_of_bracket_mem horder hitems h hr
    rw [Span.contains_iff]
    omega
  · have hr : r ∈ regions source := by
      rw [regions, htokens]
      exact hr
    have hle := ((regions_inOrder source).bounds (List.mem_map_of_mem hr)).2.1
    obtain ⟨h4, -, h5⟩ := (Region.brackets_inOrder source hle).bounds (List.mem_map_of_mem hbr)
    exact .inr ⟨r, hr, (Region.brackets_context hbr).1, h4, h5,
      regionAt_eq_some hr (by omega) (by omega)⟩

/-- Two tags have one context iff they stand in one region or both in ordinary text. -/
theorem context_eq_iff_regionAt_eq {source : Text} {b b' : Bracket} (hb : b ∈ tags source)
    (hb' : b' ∈ tags source) :
    b.context = b'.context ↔
      regionAt source b.span.start = regionAt source b'.span.start := by
  rcases tag_cases hb with ⟨hc, ha⟩ | ⟨r, hr, hc, h1, h2, ha⟩
  · rcases tag_cases hb' with ⟨hc', ha'⟩ | ⟨r', hr', hc', -, -, ha'⟩
    · rw [hc, hc', ha, ha']
      exact iff_of_true rfl rfl
    · rw [hc, hc', ha, ha']
      exact iff_of_false (Region.context_ne_body hr').symm nofun
  · rcases tag_cases hb' with ⟨hc', ha'⟩ | ⟨r', hr', hc', h1', h2', ha'⟩
    · rw [hc, hc', ha, ha']
      exact iff_of_false (Region.context_ne_body hr) nofun
    · rw [hc, hc', ha, ha', Option.some.injEq]
      constructor
      · intro h
        rw [Region.eq_of_context_eq hr hr' h]
      · intro h
        have := (proper_of_mem_tags hb).outer_start_lt
        rcases (regions_inOrder source).eq_or_apart hr hr' with rfl | h' | h'
        · rfl
        · rw [h] at h1 h2 h'
          omega
        · rw [h] at h1 h2 h'
          omega

end Scan

end Shortcode
