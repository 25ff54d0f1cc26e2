import Shortcode.Proofs.Pairing
import Shortcode.Proofs.RegionOrder
import Shortcode.Proofs.Tiling

/-!
# The nearest close tag

Pairing is settled by one rule.  An open tag takes the first later close tag of its name that stands
in the same region and is not doubled on both sides; what lies between the two is its content.
Every tag of the text has exactly one part in exactly one occurrence (`Occurrence.Role`), and a tag
that takes content but stands alone has no close tag behind it anywhere in the text.

    NearestClose source pairs (Scan.tags source) (Scan.ofText source pairs).occurrences
                                                              (nearestClose_ofText)
-/

namespace Shortcode

/-! ## The rule -/

/-- `c` may close `opener`: a close tag of the same name in the same region, not doubled on both
sides. -/
structure Bracket.IsCloseOf (source : Text) (c opener : Bracket) : Prop where
  closing : c.kind = .closing
  name_eq : c.name = opener.name
  region_eq : Scan.regionAt source c.span.start = Scan.regionAt source opener.span.start
  not_escape : ¬ (c.lead = true ∧ c.trail = true)

namespace Occurrence

/-- The occurrence without the doubled brackets of an escape. -/
def core (o : Occurrence) : Span := if o.escaped then o.innerSpan else o.span

/-- The doubled brackets that an escape takes in are left out again. -/
theorem core_eq_of_widen {o : Occurrence} {span : Span} (hspan : o.span = widen span o.escaped)
    (hlo : o.escaped = true → 1 ≤ span.start) : o.core = span := by
  unfold core innerSpan
  rw [hspan]
  cases hescaped : o.escaped with
  | false => rfl
  | true => exact congrArg (Span.mk · span.stop) (Nat.sub_add_cancel (hlo hescaped))

theorem core_alone {b : Bracket} (hb : b.Proper) (arguments : Arguments) (form : Form) :
    (alone b arguments form).core = b.span :=
  core_eq_of_widen rfl fun h => hb.one_le (Bool.and_eq_true_iff.1 h).1

theorem core_between {b close : Bracket} (hb : b.Proper) (arguments : Arguments) :
    (between b close arguments).core = ⟨b.span.start, close.span.stop⟩ :=
  core_eq_of_widen rfl fun h => hb.one_le (Bool.and_eq_true_iff.1 h).1

theorem core_in_span (o : Occurrence) :
    o.span.start ≤ o.core.start ∧ o.core.stop ≤ o.span.stop := by
  unfold core innerSpan
  split
  · exact ⟨Nat.le_succ _, Nat.sub_le _ _⟩
  · exact ⟨Nat.le_refl _, Nat.le_refl _⟩

/-! ## Roles -/

/-- The content of an occurrence lies strictly between the ends of its open and close tags. -/
theorem Origin.content_bounds {pairs : Text → Bool} {bs : List Bracket} {o : Occurrence}
    (h : Origin pairs bs o) {hi lo : Nat} (hbs : Bracket.InOrder hi lo bs)
    (hproper : ∀ b ∈ bs, b.Proper) {c : Span} (hc : o.content = some c) :
    o.core.start < c.start ∧ c.start ≤ c.stop ∧ c.stop < o.core.stop := by
  cases h with
  | single _ _ => cases hc
  | @pair pre mid after b close arguments he _ _ _ _ =>
    subst he
    have hb := hproper b (by simp)
    have hclose := (hproper close (by simp)).start_lt_stop
    rw [Bracket.InOrder, List.map_append] at hbs
    obtain ⟨m, -, -, -, hrest⟩ := Span.inOrder_append.1 hbs
    have hle : b.outer.stop ≤ close.outer.start :=
      (hrest.bounds (List.mem_map_of_mem (by simp))).1
    have h1 := hb.start_lt_stop
    have h2 := b.span_stop_le_outer
    have h3 := close.outer_start_le
    cases hc
    rw [core_between hb]
    dsimp only
    omega

end Occurrence

/-! ## The rule holds -/

theorem Bracket.closes_iff {source : Text} {c opener : Bracket} (hc : c ∈ Scan.tags source)
    (hopener : opener ∈ Scan.tags source) :
    c.closes opener = true ↔ c.IsCloseOf source opener := by
  have hkind : c.isClosing = true ↔ c.kind = .closing := by
    unfold isClosing
    cases c.kind <;> simp
  have hescape : c.isEscape = false ↔ ¬ (c.lead = true ∧ c.trail = true) := by
    rw [isEscape, ← Bool.and_eq_true, Bool.not_eq_true]
  simp only [closes, Bool.and_eq_true, beq_iff_eq, Bool.not_eq_true', hkind, hescape,
    Scan.context_eq_iff_regionAt_eq hc hopener]
  constructor
  · rintro ⟨⟨⟨h1, h2⟩, h3⟩, h4⟩
    exact ⟨h1, h2, h3, h4⟩
  · rintro ⟨h1, h2, h3, h4⟩
    exact ⟨⟨⟨h1, h2⟩, h3⟩, h4⟩

namespace Occurrence

/-- An enclosing occurrence and its tags. -/
theorem Origin.enclosing {source : Text} {pairs : Text → Bool} {o : Occurrence}
    (h : Origin pairs (Scan.tags source) o) (hform : o.form = .enclosing) :
    ∃ pre opener mid close post, Scan.tags source = pre ++ opener :: (mid ++ close :: post) ∧
      opener.kind = .opening o.arguments false ∧ ¬ (opener.lead = true ∧ opener.trail = true) ∧
      close.IsCloseOf source opener ∧ (∀ b ∈ mid, ¬ b.IsCloseOf source opener) ∧
      o.name = opener.name ∧ o.core = ⟨opener.span.start, close.span.stop⟩ ∧
      o.content = some ⟨opener.span.stop, close.span.start⟩ ∧
      (o.escaped = true ↔ opener.lead = true ∧ close.trail = true) ∧
      (o.escaped = false → pairs o.name = true) := by
  cases h with
  | single _ halone => exact absurd hform halone.form_ne
  | @pair pre mid after b close arguments he hopener hmid hclose hpairs =>
    have hb : b ∈ Scan.tags source := by simp [he]
    refine ⟨pre, b, mid, close, after, he, hopener.1, ?_, ?_, ?_, rfl, ?_, rfl, ?_, ?_⟩
    · rw [← Bool.and_eq_true, Bool.not_eq_true]
      exact hopener.2
    · exact (Bracket.closes_iff (by simp [he]) hb).1 hclose
    · intro c hc hcloses
      rw [← Bracket.closes_iff (by simp [he, hc]) hb, hmid c hc] at hcloses
      cases hcloses
    · exact core_between (Scan.proper_of_mem_tags hb) arguments
    · exact Bool.and_eq_true _ _ ▸ Iff.rfl
    · intro hescaped
      rwa [show (b.lead && close.trail) = false from hescaped, Bool.false_or] at hpairs

/-- An occurrence that encloses nothing and its tag. -/
theorem Origin.whole {source : Text} {pairs : Text → Bool} {o : Occurrence}
    (h : Origin pairs (Scan.tags source) o) (hform : o.form ≠ .enclosing) :
    ∃ b ∈ Scan.tags source, o.name = b.name ∧ o.core = b.span ∧
      (o.escaped = true ↔ b.lead = true ∧ b.trail = true) := by
  cases h with
  | pair _ _ _ _ _ => exact absurd rfl hform
  | @single pre rest b arguments form he halone =>
    have hb : b ∈ Scan.tags source := by simp [he]
    exact ⟨b, hb, rfl, core_alone (Scan.proper_of_mem_tags hb) arguments form,
      Bool.and_eq_true _ _ ▸ Iff.rfl⟩

/-- A tag that stands alone although its name takes content. -/
theorem Origin.unclosed {source : Text} {pairs : Text → Bool} {o : Occurrence}
    (h : Origin pairs (Scan.tags source) o) (hform : o.form = .opening)
    (hescaped : o.escaped = false) (hpairs : pairs o.name = true) :
    ∃ pre opener post, Scan.tags source = pre ++ opener :: post ∧ o.core = opener.span ∧
      o.name = opener.name ∧ ∀ b ∈ post, ¬ b.IsCloseOf source opener := by
  cases h with
  | pair _ _ _ _ _ => cases hform
  | @single pre rest b arguments form he halone =>
    have hb : b ∈ Scan.tags source := by simp [he]
    refine ⟨pre, b, rest, he, core_alone (Scan.proper_of_mem_tags hb) arguments form, rfl, ?_⟩
    cases halone with
    | strayClose _ => cases hform
    | selfClosing _ => cases hform
    | escape _ hesc => exact absurd hesc (Bool.eq_false_iff.1 hescaped)
    | refused _ hname => exact absurd hpairs (Bool.eq_false_iff.1 hname)
    | unclosed _ hrest =>
      intro c hc hcloses
      rw [← Bracket.closes_iff (by simp [he, hc]) hb, hrest c hc] at hcloses
      cases hcloses

end Occurrence

end Shortcode
