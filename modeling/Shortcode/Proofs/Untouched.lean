import Shortcode.Proofs.Anchors

/-!
# Texts without anything to do

A tag that is not actionable stands for its own text, whatever the elements around it, and no
handler is called for it.  A text that holds no other tags is put together as it was.  A plain text,
which is not even scanned, holds no tags at all: each tag starts with a `[`, which is not white
space.

    isPlain text = true → (Scan.ofText text pairs).occurrences = []         (occurrences_of_isPlain)
    renderer.hasActionable text w = false →
      (renderer.rules w).renderSegments render text … w = .ok text w        (renderSegments_of_idle)
-/

namespace Shortcode

open Byte

/-! ## Where tags start -/

/-- Without a `[` a text without markup holds no tags. -/
theorem Scan.brackets_eq_nil {context : Context} {c : Cursor} (h : leftBracket ∉ c.rest) :
    Scan.brackets context c = [] := by
  induction hn : c.rest.length using Nat.strongRecOn generalizing c with
  | _ n ih =>
    subst hn
    rw [Scan.brackets]
    split
    · rfl
    · rename_i b rest hrest
      rw [if_neg (by rintro rfl; exact h (by simp [hrest]))]
      refine ih _ (Cursor.length_advance_lt (by decide : 0 < 1) (by simp [hrest])) ?_ rfl
      exact fun hmem => h (List.mem_of_mem_drop hmem)

theorem Cursor.Reaches.mem_rest {c d : Cursor} (h : c.Reaches d) {b : UInt8} (hb : b ∈ d.rest) :
    b ∈ c.rest := by
  obtain ⟨n, -, rfl⟩ := h
  exact List.mem_of_mem_drop hb

/-- A tag that the pass finds in ordinary text is written with a `[`. -/
theorem Pass.leftBracket_mem {source : Text} {c : Cursor} {items : List Piece}
    (h : Pass source c items) {b : Bracket} (hb : .bracket b ∈ items) : leftBracket ∈ c.rest := by
  induction h with
  | done => cases hb
  | skip hne _ _ _ ih => exact (Cursor.reaches_next hne).mem_rest (ih hb)
  | bracket hpeek _ _ _ => exact List.mem_of_mem_head? hpeek
  | token htoken hreach _ _ ih =>
    rcases List.mem_cons.1 hb with hb | hb
    · cases hb
    · exact ((Token.readFrom_of_read htoken).reaches.trans hreach).mem_rest (ih hb)

/-- Without a `[` a text holds no tags. -/
theorem Scan.tags_eq_nil {source : Text} (h : leftBracket ∉ source) : Scan.tags source = [] := by
  obtain ⟨items, hpass, he⟩ := exists_pass (Cursor.over_ofText source) 0
  refine List.eq_nil_iff_forall_not_mem.2 fun b hb => ?_
  rw [tags, he] at hb
  rcases Piece.mem_expand_bracket? hb with hb | ⟨r, -, hb⟩
  · exact h (hpass.leftBracket_mem hb)
  · rw [Region.brackets, Scan.brackets_eq_nil] at hb
    · cases hb
    · exact fun hmem => h (List.mem_of_mem_drop (List.mem_of_mem_take hmem))

namespace Text

/-! ## White space -/

theorem leftBracket_mem_of_continued {count bits n : Nat} {t rest : Text}
    (h : continued? count bits t = some (n, rest)) (hmem : leftBracket ∈ t) :
    leftBracket ∈ rest := by
  induction count generalizing bits t with
  | zero =>
    cases h
    exact hmem
  | succ count ih =>
    cases t with
    | nil => cases hmem
    | cons b t =>
      rw [continued?] at h
      split at h
      · rename_i hb
        rcases List.mem_cons.1 hmem with rfl | hmem
        · exact absurd hb (by decide)
        · exact ih h hmem
      · cases h

theorem leftBracket_mem_of_multibyte {count least bits : Nat} {t rest : Text} {c : Char}
    (h : multibyte? count least bits t = some (c, rest)) (hmem : leftBracket ∈ t) :
    leftBracket ∈ rest := by
  unfold multibyte? at h
  split at h
  · cases h
  · rename_i hcontinued
    split at h
    · cases h
      exact leftBracket_mem_of_continued hcontinued hmem
    · cases h

/-- The byte of a `[` belongs to no other character. -/
theorem leftBracket_mem_of_decode {t rest : Text} {c : Char} (h : decode? t = some (c, rest))
    (hmem : leftBracket ∈ t) : c = '[' ∨ leftBracket ∈ rest := by
  cases t with
  | nil => cases hmem
  | cons b t =>
    rcases List.mem_cons.1 hmem with rfl | hmem
    · cases h
      exact .inl rfl
    · right
      simp only [decode?] at h
      split at h
      · cases h
        exact hmem
      · split at h
        · cases h
        · split at h
          · exact leftBracket_mem_of_multibyte h hmem
          · split at h
            · exact leftBracket_mem_of_multibyte h hmem
            · split at h
              · exact leftBracket_mem_of_multibyte h hmem
              · cases h

/-- Skipping characters other than `[` skips no `[`. -/
theorem leftBracket_mem_splitWhile {p : Char → Bool} (hp : p '[' = false) {t : Text}
    (hmem : leftBracket ∈ t) : leftBracket ∈ (splitWhile p t).2 := by
  induction hn : t.length using Nat.strongRecOn generalizing t with
  | _ n ih =>
    subst hn
    rw [splitWhile]
    split
    · exact hmem
    · rename_i c rest hdecode
      split
      · rename_i hc
        rcases leftBracket_mem_of_decode hdecode hmem with rfl | hmem
        · rw [hp] at hc
          cases hc
        · exact ih _ (length_decode_lt hdecode) hmem rfl
      · exact hmem

theorem leftBracket_notMem_of_isBlank {t : Text} (h : t.isBlank = true) : leftBracket ∉ t := by
  intro hmem
  have hleft := leftBracket_mem_splitWhile (p := CharacterClass.isBlank) (by decide) hmem
  rw [List.isEmpty_iff.1 h] at hleft
  cases hleft

end Text

/-- A text that is not scanned holds no tags. -/
theorem Renderer.occurrences_of_isPlain {text : Text} (h : Renderer.isPlain text = true)
    (pairs : Text → Bool) : (Scan.ofText text pairs).occurrences = [] := by
  have hnot : leftBracket ∉ text := by
    rcases Bool.or_eq_true _ _ ▸ h with hblank | hnone
    · exact Text.leftBracket_notMem_of_isBlank hblank
    · simpa using hnone
  rw [Scan.occurrences_ofText, Scan.tags_eq_nil hnot, Occurrence.ofBrackets]

/-! ## Tags that stay -/

namespace Rules

variable {σ : Type} {rules : Rules} {o : Occurrence} {w : World σ}

theorem isActionable_eq_false_iff : rules.isActionable o w = false ↔
    o.escaped = false ∧ rules.policy = .leave ∧ rules.handler? o w = none := by
  unfold isActionable handler? World.isRegistered World.handler? TagMap.contains
  by_cases hform : o.form = .strayClose
  · simp [hform]
  · simp [hform, and_assoc]

/-- A tag without a handler is left to the policy. -/
theorem resolve_of_handler?_eq_none (hescaped : o.escaped = false)
    (hhandler : rules.handler? o w = none) (render : Rendering σ) (source : Text) (d : Document) :
    rules.resolve render source d o w =
      .ok ⟨rules.policy.apply (o.text source) o.context.isBody, .inline⟩ w := by
  rw [resolve, hescaped, if_neg Bool.false_ne_true, hhandler]

/-- A tag that is not actionable stands for its own text, without a call. -/
theorem resolve_of_not_actionable (h : rules.isActionable o w = false) (render : Rendering σ)
    (source : Text) (d : Document) :
    rules.resolve render source d o w = .ok ⟨o.text source, .inline⟩ w := by
  obtain ⟨hescaped, hpolicy, hhandler⟩ := isActionable_eq_false_iff.1 h
  rw [resolve_of_handler?_eq_none hescaped hhandler, hpolicy, Policy.apply]

/-- Tags that are not actionable all stay where they are. -/
theorem resolveAll_of_not_actionable {os : List Occurrence}
    (h : ∀ o ∈ os, rules.isActionable o w = false) (render : Rendering σ) (source : Text)
    (d : Document) (spans : List Span) :
    rules.resolveAll render source d spans os w =
      .ok (os.map fun o => ⟨o.text source, none⟩) w := by
  induction os with
  | nil => rfl
  | cons o rest ih =>
    rw [resolveAll, resolve_of_not_actionable (h o List.mem_cons_self)]
    dsimp only [place, Occurrence.destination]
    rw [ih fun p hp => h p (List.mem_cons_of_mem _ hp)]
    rfl

end Rules

/-! ## Documents put together as they were -/

/-- Writing each tag as it stands writes all spans in order. -/
theorem Segment.write_sources (source : Text) (fragments : List Fragment) {segments : List Segment}
    (h : ∀ k, .marker k ∉ segments) :
    write source fragments segments
        ((segments.filterMap Segment.occurrence?).map (·.text source)) =
      (segments.filterMap Segment.span?).flatMap (·.slice source) := by
  induction segments with
  | nil => rfl
  | cons s rest ih =>
    have hrest := ih fun k hk => h k (List.mem_cons_of_mem _ hk)
    cases s with
    | literal span => exact congrArg (span.slice source ++ ·) hrest
    | tag o => exact congrArg (o.text source ++ ·) hrest
    | marker k => exact absurd List.mem_cons_self (h k)

/-- A text whose tags all stay is put together as it was. -/
theorem Scan.assemble_sources (source : Text) (pairs : Text → Bool) :
    Segment.assemble source (ofText source pairs).segments
      ((ofText source pairs).occurrences.map fun o => ⟨o.text source, none⟩) = source := by
  obtain ⟨horder, hproper⟩ := occurrences_inOrder source pairs
  obtain ⟨spans, hspans, htiles⟩ := segmentsFrom_tile horder hproper
  have hmarkers := marker_notMem_segmentsFrom source.length 0
    (Occurrence.ofBrackets pairs (tags source))
  have hliteral : (ofText source pairs).segments.filterMap Segment.span? = spans := by
    have h := congrArg (List.filterMap id) hspans
    rwa [List.filterMap_map, List.filterMap_map, Function.id_comp, Function.id_comp,
      List.filterMap_some] at h
  have hwrite := Segment.write_sources source [] hmarkers
  rw [← segments_ofText, hliteral, Span.slices_of_tiles htiles] at hwrite
  rw [Segment.assemble, List.filterMap_map, List.map_map]
  have hnone : (ofText source pairs).occurrences.filterMap
      (Placed.fragment? ∘ fun o => ⟨o.text source, none⟩) = [] :=
    List.filterMap_eq_nil_iff.2 fun _ _ => rfl
  rw [hnone]
  exact hwrite

/-! ## Renderings without anything to do -/

namespace Renderer

variable {σ : Type} {renderer : Renderer σ} {text : Text} {w : World σ}

/-- Whether any tag of a text is actionable. -/
def hasActionable (renderer : Renderer σ) (text : Text) (w : World σ) : Bool :=
  (renderer.scan text w).occurrences.any ((renderer.rules w).isActionable · w)

theorem hasActionable_of_isPlain (h : isPlain text = true) :
    renderer.hasActionable text w = false := by
  rw [hasActionable, scan, occurrences_of_isPlain h]
  rfl

/-- Without an actionable tag the text is its own rendering; no handler is called. -/
theorem renderSegments_of_idle (h : renderer.hasActionable text w = false) (render : Rendering σ)
    (d : Document) (state : σ) :
    (renderer.rules w).renderSegments render text (renderer.scan text w).segments d
      { w with state := state } = .ok text { w with state := state } := by
  have hall : ∀ o ∈ (renderer.scan text w).segments.filterMap Segment.occurrence?,
      (renderer.rules w).isActionable o { w with state := state } = false := fun o ho =>
    Bool.eq_false_iff.2 fun ho' => List.any_eq_false.1 h o ho ho'
  rw [Rules.renderSegments_eq_map, Rules.resolveAll_of_not_actionable hall]
  exact congrArg (Result.ok · _) (Scan.assemble_sources text _)

end Renderer

end Shortcode
