import Shortcode.Proofs.Regions

/-!
# The order of a scan

Tags and tokens of a document are found in order: the spans of the tags do not overlap, doubled
brackets included, and neither do those of the tokens, nor those of the regions.

    Bracket.InOrder source.length 0 (Scan.tags source)                  (tags_inOrder)
    Span.InOrder source.length 0 ((Scan.tokens source).map Token.span)  (tokens_inOrder)
-/

namespace Shortcode

open Byte

/-! ## What a scan finds -/

namespace Scan

/-- The bracket tags that the pass over a text finds, in order. -/
def tags (source : Text) : List Bracket :=
  (pieces 0 (.ofText source 0)).filterMap Piece.bracket?

/-- The markup tokens that the pass over a text finds, in order. -/
def tokens (source : Text) : List Token :=
  (pieces 0 (.ofText source 0)).filterMap Piece.token?

/-- The regions of a text, in order. -/
def regions (source : Text) : List Region := Region.ofTokens source 0 (tokens source)

theorem markup_ofText (source : Text) (pairs : Text → Bool) :
    (ofText source pairs).markup = tokens source := rfl

end Scan

/-- The token holds something, and its attribute values stand in order inside it. -/
structure Token.Proper (t : Token) : Prop where
  start_lt_stop : t.span.start < t.span.stop
  values_inOrder : ∀ tag, t = .start tag →
    Span.InOrder (t.span.stop - 1) (t.span.start + 1) (Attribute.values tag.attributes)

theorem Token.ReadFrom.proper {c d : Cursor} {t : Token} (h : Token.ReadFrom c d t) :
    t.Proper := by
  constructor
  · rw [h.span_eq]
    exact h.pos_lt
  · rw [h.span_eq]
    exact h.values_inOrder

/-- What is known of each tag of ordinary text and of each token. -/
def Piece.Proper : Piece → Prop
  | .bracket b => b.context = .body ∧ b.Proper
  | .token t => t.Proper

theorem Token.extent_start (source : Text) (t : Token) :
    (t.extent source).start = t.span.start := by
  cases t with
  | start tag =>
    rw [extent]
    split <;> rfl
  | finish name span => rfl
  | opaqueText span => rfl

theorem Token.span_stop_le_extent (source : Text) (t : Token) :
    t.span.stop ≤ (t.extent source).stop := by
  cases t with
  | start tag =>
    rw [extent]
    split
    · exact Nat.le_refl _
    · exact Nat.le_add_right _ _
  | finish name span => exact Nat.le_refl _
  | opaqueText span => exact Nat.le_refl _

/-! ## The pass -/

/-- The pass finds its items in order and each of them is proper. -/
theorem Pass.inOrder {source : Text} {c : Cursor} {items : List Piece} (h : Pass source c items)
    (hc : c.Over source) :
    Span.InOrder source.length c.pos (items.map (·.extent source)) ∧ ∀ p ∈ items, p.Proper := by
  induction h with
  | done _ => exact ⟨hc.1, fun p hp => by cases hp⟩
  | skip hne _ _ _ ih =>
    have hnext := Cursor.reaches_next hne
    obtain ⟨h1, h2⟩ := ih (hnext.over hc)
    exact ⟨h1.mono_left hnext.pos_le, h2⟩
  | @bracket c d b items _ hread _ ih =>
    have hb := Bracket.readFrom_of_read hread
    obtain ⟨h1, h2⟩ := ih (hb.reaches.over hc)
    constructor
    · rw [List.map_cons, Piece.extent, hb.outer_eq]
      exact ⟨Nat.le_refl _, hb.reaches.pos_le, h1⟩
    · intro p hp
      rcases List.mem_cons.1 hp with rfl | hp
      · exact ⟨hb.context_eq, hb.proper⟩
      · exact h2 p hp
  | @token c d e t items hread hde he _ ih =>
    have ht := Token.readFrom_of_read hread
    obtain ⟨h1, h2⟩ := ih (hde.over (ht.reaches.over hc))
    have hstart : (t.extent source).start = c.pos := by
      rw [t.extent_start, ht.span_eq]
      rfl
    constructor
    · rw [List.map_cons]
      refine ⟨Nat.le_of_eq hstart.symm, ?_, ?_⟩
      · show (t.extent source).start ≤ (t.extent source).stop
        rw [hstart, ← he]
        exact (ht.reaches.trans hde).pos_le
      · show Span.InOrder source.length (t.extent source).stop _
        rw [← he]
        exact h1
    · intro p hp
      rcases List.mem_cons.1 hp with rfl | hp
      · exact ht.proper
      · exact h2 p hp

/-! ## Regions -/

namespace Region

/-- The tags of a region lie in it, in order. -/
theorem brackets_inOrder (source : Text) {r : Region} (hr : r.span.start ≤ r.span.stop) :
    Bracket.InOrder r.span.stop r.span.start (r.brackets source) := by
  refine Span.InOrder.mono_right
    (Scan.brackets_inOrder r.context (.ofText (r.span.slice source) r.span.start)).1 ?_
  show r.span.start + ((source.drop r.span.start).take r.span.length).length ≤ r.span.stop
  rw [List.length_take, Span.length]
  omega

theorem brackets_context {source : Text} {r : Region} {b : Bracket} (hb : b ∈ r.brackets source) :
    b.context = r.context ∧ b.Proper :=
  (Scan.brackets_inOrder _ _).2 b hb

theorem flatMap_brackets_inOrder (source : Text) {hi lo : Nat} {rs : List Region}
    (h : Span.InOrder hi lo (rs.map span)) :
    Bracket.InOrder hi lo (rs.flatMap (·.brackets source)) := by
  induction rs generalizing lo with
  | nil => exact h
  | cons r rest ih =>
    obtain ⟨h1, h2, h3⟩ := h
    rw [Bracket.InOrder, List.flatMap_cons, List.map_append]
    exact ((brackets_inOrder source h2).mono_left h1).append (ih h3)

theorem ofAttributes_spans_sublist (source element : Text) (n : Nat) (as : List Attribute) :
    ((ofAttributes source element n as).map span).Sublist (Attribute.values as) := by
  induction as generalizing n with
  | nil => exact .slnil
  | cons a rest ih =>
    rw [ofAttributes, Attribute.values]
    cases hv : a.value with
    | none =>
      rw [List.filterMap_cons_none hv]
      exact ih n
    | some v =>
      rw [List.filterMap_cons_some hv]
      dsimp only
      split
      · exact (ih (n + 1)).cons_cons v
      · exact (ih n).cons v

/-- The regions of a token lie in its extent behind its `<`, in order. -/
theorem ofToken_inOrder (source : Text) (n : Nat) {t : Token} (ht : t.Proper) :
    Span.InOrder (t.extent source).stop t.span.start ((ofToken source n t).map span) := by
  have hle := Nat.le_trans (Nat.le_of_lt ht.start_lt_stop) (t.span_stop_le_extent source)
  cases t with
  | finish name span => exact hle
  | opaqueText span => exact hle
  | start tag =>
    have hvalues : Span.InOrder tag.span.stop tag.span.start
        ((ofAttributes source tag.name n tag.attributes).map span) :=
      (((ht.values_inOrder tag rfl).sublist
        (ofAttributes_spans_sublist source tag.name n _)).mono_left
          (Nat.le_succ _)).mono_right (Nat.sub_le _ _)
    simp only [ofToken, Token.extent, Token.span]
    split
    · exact hvalues
    · rw [List.map_append]
      exact hvalues.append ⟨Nat.le_refl _, Nat.le_add_right _ _, Nat.le_refl _⟩

end Region

/-! ## Tags and tokens in order -/

namespace Piece

@[simp] theorem filterMap_bracket?_bracket (b : Bracket) (rest : List Piece) :
    (bracket b :: rest).filterMap bracket? = b :: rest.filterMap bracket? := rfl

@[simp] theorem filterMap_bracket?_token (t : Token) (rest : List Piece) :
    (token t :: rest).filterMap bracket? = rest.filterMap bracket? := rfl

@[simp] theorem filterMap_token?_bracket (b : Bracket) (rest : List Piece) :
    (bracket b :: rest).filterMap token? = rest.filterMap token? := rfl

@[simp] theorem filterMap_token?_token (t : Token) (rest : List Piece) :
    (token t :: rest).filterMap token? = t :: rest.filterMap token? := rfl

theorem expand_token? (source : Text) (n : Nat) (items : List Piece) :
    (expand source n items).filterMap token? = items.filterMap token? := by
  induction items generalizing n with
  | nil => rfl
  | cons p rest ih =>
    cases p with
    | bracket b => exact ih n
    | token t =>
      rw [expand, filterMap_token?_token, filterMap_token?_token, List.filterMap_append, ih,
        List.filterMap_map]
      congr 1
      exact List.append_left_eq_self.2 (List.filterMap_eq_nil_iff.2 fun _ _ => rfl)

theorem expand_bracket?_token (source : Text) (n : Nat) (t : Token) (rest : List Piece) :
    (expand source n (.token t :: rest)).filterMap bracket? =
      (Region.ofToken source n t).flatMap (·.brackets source) ++
        (expand source (n + (Region.ofToken source n t).length) rest).filterMap bracket? := by
  rw [expand, filterMap_bracket?_token, List.filterMap_append, List.filterMap_map]
  congr 1
  exact List.filterMap_some

theorem expand_bracket?_inOrder {source : Text} {hi lo : Nat} {items : List Piece} (n : Nat)
    (h : Span.InOrder hi lo (items.map (·.extent source))) (hp : ∀ p ∈ items, p.Proper) :
    Bracket.InOrder hi lo ((expand source n items).filterMap bracket?) := by
  induction items generalizing lo n with
  | nil => exact h
  | cons p rest ih =>
    obtain ⟨h1, h2, h3⟩ := h
    have hrest := fun n => ih n h3 fun q hq => hp q (List.mem_cons_of_mem _ hq)
    cases p with
    | bracket b => exact ⟨h1, h2, hrest n⟩
    | token t =>
      have ht : t.Proper := hp _ List.mem_cons_self
      rw [expand_bracket?_token, Bracket.InOrder, List.map_append]
      refine Span.InOrder.append ?_ (hrest _)
      have hregions := Region.ofToken_inOrder source n ht
      refine (Region.flatMap_brackets_inOrder source hregions).mono_left ?_
      rw [← t.extent_start source]
      exact h1

theorem token?_inOrder {source : Text} {hi lo : Nat} {items : List Piece}
    (h : Span.InOrder hi lo (items.map (·.extent source))) (hp : ∀ p ∈ items, p.Proper) :
    Span.InOrder hi lo ((items.filterMap token?).map Token.span) := by
  induction items generalizing lo with
  | nil => exact h
  | cons p rest ih =>
    obtain ⟨h1, h2, h3⟩ := h
    have hrest := ih h3 fun q hq => hp q (List.mem_cons_of_mem _ hq)
    cases p with
    | bracket b => exact hrest.mono_left (Nat.le_trans h1 h2)
    | token t =>
      have ht : t.Proper := hp _ List.mem_cons_self
      rw [filterMap_token?_token]
      refine ⟨?_, Nat.le_of_lt ht.start_lt_stop, hrest.mono_left (t.span_stop_le_extent source)⟩
      rw [← t.extent_start source]
      exact h1

/-- A tag stands in ordinary text or in a region. -/
theorem mem_expand_bracket? {source : Text} {n : Nat} {items : List Piece} {b : Bracket}
    (hb : b ∈ (expand source n items).filterMap bracket?) :
    .bracket b ∈ items ∨
      ∃ r ∈ Region.ofTokens source n (items.filterMap token?), b ∈ r.brackets source := by
  induction items generalizing n with
  | nil => cases hb
  | cons p rest ih =>
    cases p with
    | bracket b' =>
      rw [expand, filterMap_bracket?_bracket] at hb
      rcases List.mem_cons.1 hb with rfl | hb
      · exact .inl List.mem_cons_self
      · exact (ih hb).imp_left (List.mem_cons_of_mem _)
    | token t =>
      rw [expand_bracket?_token] at hb
      rw [filterMap_token?_token, Region.ofTokens]
      rcases List.mem_append.1 hb with hb | hb
      · obtain ⟨r, hr, hb⟩ := List.mem_flatMap.1 hb
        exact .inr ⟨r, List.mem_append_left _ hr, hb⟩
      · rcases ih hb with h | ⟨r, hr, h⟩
        · exact .inl (List.mem_cons_of_mem _ h)
        · exact .inr ⟨r, List.mem_append_right _ hr, h⟩

end Piece

namespace Scan

/-- What a scan finds comes from items in order. -/
theorem exists_items (source : Text) : ∃ items,
    Span.InOrder source.length 0 (items.map (·.extent source)) ∧ (∀ p ∈ items, p.Proper) ∧
      tags source = (Piece.expand source 0 items).filterMap Piece.bracket? ∧
      tokens source = items.filterMap Piece.token? := by
  have hover := Cursor.over_ofText source
  obtain ⟨items, hpass, he⟩ := exists_pass hover 0
  obtain ⟨horder, hproper⟩ := hpass.inOrder hover
  refine ⟨items, horder, hproper, ?_, ?_⟩
  · rw [tags, he]
  · rw [tokens, he, Piece.expand_token?]

theorem tags_inOrder (source : Text) : Bracket.InOrder source.length 0 (tags source) := by
  obtain ⟨items, horder, hproper, htags, -⟩ := exists_items source
  rw [htags]
  exact Piece.expand_bracket?_inOrder 0 horder hproper

theorem tokens_inOrder (source : Text) :
    Span.InOrder source.length 0 ((tokens source).map Token.span) := by
  obtain ⟨items, horder, hproper, -, htokens⟩ := exists_items source
  rw [htokens]
  exact Piece.token?_inOrder horder hproper

theorem proper_of_mem_tags {source : Text} {b : Bracket} (hb : b ∈ tags source) : b.Proper := by
  obtain ⟨items, -, hproper, htags, -⟩ := exists_items source
  rw [htags] at hb
  rcases Piece.mem_expand_bracket? hb with h | ⟨r, -, h⟩
  · exact (hproper _ h).2
  · exact (Region.brackets_context h).2

theorem proper_of_mem_tokens {source : Text} {t : Token} (ht : t ∈ tokens source) : t.Proper := by
  obtain ⟨items, -, hproper, -, htokens⟩ := exists_items source
  rw [htokens] at ht
  obtain ⟨p, hp, he⟩ := List.mem_filterMap.1 ht
  cases p with
  | bracket b => cases he
  | token t' =>
    cases he
    exact hproper _ hp

end Scan

end Shortcode
