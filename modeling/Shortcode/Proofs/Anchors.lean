import Shortcode.Proofs.Forest
import Shortcode.Proofs.Tiling
import Shortcode.Proofs.Walk
import Shortcode.Render.Renderer

/-!
# Anchors

A text is moved if its tag stands in ordinary text, asks for the front or the back of its block and
has one, and that boundary of the block lies inside no tag.  With the anchors, the tags of a text
are slots that fit it.

    rules.resolutions render source d spans os w = .ok rs w' →
      Fit source.length (List.zipWith (Slot.of d spans) os rs)                   (fit_slots)
-/

namespace Shortcode

/-- The boundary of a block that a text goes to. -/
def Placement.boundary? : Placement → Element → Option Nat
  | .before, e => some e.startTag.start
  | .after, e => some e.stop
  | .inline, _ => none
  | .split, _ => none

/-- The anchor of a text that is moved. -/
def Destination.anchor? : Destination → Option Nat
  | .anchor a => some a
  | _ => none

namespace Occurrence

/-- Where the text of an occurrence is moved to, if it is moved; `spans` are those of all
occurrences. -/
def anchor? (o : Occurrence) (placement : Placement) (d : Document) (spans : List Span) :
    Option Nat :=
  if o.context.isBody then do
    let id ← d.enclosingBlock o.span.start
    let e ← d.element? id
    let a ← placement.boundary? e
    if spans.any (·.strictlyContains a) then none else some a
  else none

section

variable {o : Occurrence} {placement : Placement} {d : Document} {spans : List Span} {a : Nat}

theorem anchor?_eq_some_iff : o.anchor? placement d spans = some a ↔
    o.context.isBody = true ∧ ∃ id e, d.enclosingBlock o.span.start = some id ∧
      d.element? id = some e ∧ placement.boundary? e = some a ∧
      ∀ s ∈ spans, ¬ (s.start < a ∧ a < s.stop) := by
  unfold anchor?
  by_cases hbody : o.context.isBody = true
  · rw [if_pos hbody]
    simp only [Option.bind_eq_bind, Option.bind_eq_some_iff, hbody, true_and]
    constructor
    · rintro ⟨id, hid, e, he, b, hb, h⟩
      split at h
      · cases h
      · rename_i hany
        cases h
        refine ⟨id, e, hid, he, hb, fun s hs hin => hany ?_⟩
        exact List.any_eq_true.2 ⟨s, hs, Span.strictlyContains_iff.2 hin⟩
    · rintro ⟨id, e, hid, he, hb, hclear⟩
      refine ⟨id, hid, e, he, a, hb, if_neg fun hany => ?_⟩
      obtain ⟨s, hs, hin⟩ := List.any_eq_true.1 hany
      exact hclear s hs (Span.strictlyContains_iff.1 hin)
  · rw [if_neg hbody]
    exact ⟨nofun, fun h => absurd h.1 hbody⟩

/-- The boundary of the nearest block, if it lies inside no tag. -/
theorem block_anchor? {boundary : Element → Nat}
    (hb : ∀ e, placement.boundary? e = some (boundary e)) :
    (destination.block o placement d spans boundary).anchor? = o.anchor? placement d spans := by
  unfold destination.block anchor?
  cases hbody : o.context.isBody with
  | false => rfl
  | true =>
    cases hid : d.enclosingBlock o.span.start with
    | none => rfl
    | some id =>
      cases he : d.element? id with
      | none => simp [Destination.anchor?, he]
      | some e =>
        simp only [Option.bind_some, Option.bind_eq_bind, he, hb]
        cases spans.any (·.strictlyContains (boundary e)) <;> rfl

theorem destination_anchor? :
    (o.destination placement d spans).anchor? = o.anchor? placement d spans := by
  have hstay : (∀ e, placement.boundary? e = none) → o.anchor? placement d spans = none := by
    intro hb
    rw [Option.eq_none_iff_forall_ne_some]
    intro a ha
    obtain ⟨_, _, e, _, _, hba, _⟩ := anchor?_eq_some_iff.1 ha
    cases (hb e).symm.trans hba
  cases placement with
  | inline => exact (hstay fun _ => rfl).symm
  | split => exact (hstay fun _ => rfl).symm
  | before => exact block_anchor? fun _ => rfl
  | after => exact block_anchor? fun _ => rfl

end

end Occurrence

/-- The place of an occurrence, with what it is resolved to. -/
def Slot.of (d : Document) (spans : List Span) (o : Occurrence) (r : Resolved) : Slot :=
  ⟨o.span, r.text, o.anchor? r.placement d spans⟩

/-- Changes what a computation gives. -/
def Result.map {σ ε α β : Type} (f : α → β) : Result σ ε α → Result σ ε β
  | .error e w => .error e w
  | .tooDeep => .tooDeep
  | .ok a w => .ok (f a) w

/-- What a computation gives, if it gives anything. -/
def Result.value? {σ ε α : Type} : Result σ ε α → Option α
  | .ok a _ => some a
  | _ => none

namespace Rules

variable {σ : Type}

/-- The text of an occurrence stays or goes as its anchor says. -/
theorem place_fst (o : Occurrence) (r : Resolved) (d : Document) (spans : List Span)
    (w : World σ) : (place o r d spans w).1 = ⟨r.text, o.anchor? r.placement d spans⟩ := by
  unfold place
  rw [← Occurrence.destination_anchor?]
  cases o.destination r.placement d spans <;> rfl

/-- What the occurrences are resolved to, from left to right, up to the first handler that fails. -/
def resolutions (render : Rendering σ) (rules : Rules) (source : Text) (d : Document)
    (spans : List Span) : List Occurrence → World σ → Result σ RenderError (List Resolved)
  | [], w => .ok [] w
  | o :: rest, w =>
    match rules.resolve render source d o w with
    | .error e w => .error e w
    | .tooDeep => .tooDeep
    | .ok r w =>
      match resolutions render rules source d spans rest (place o r d spans w).2 with
      | .error e w => .error e w
      | .tooDeep => .tooDeep
      | .ok rs w => .ok (r :: rs) w

variable {render : Rendering σ} {rules : Rules} {source : Text} {d : Document}
  {spans : List Span}

/-- Each occurrence is placed as what it is resolved to asks for. -/
theorem resolveAll_eq (os : List Occurrence) (w : World σ) :
    rules.resolveAll render source d spans os w =
      (rules.resolutions render source d spans os w).map
        (List.zipWith (fun o r => ⟨r.text, o.anchor? r.placement d spans⟩) os) := by
  induction os generalizing w with
  | nil => rfl
  | cons o rest ih =>
    rw [resolveAll, resolutions]
    cases rules.resolve render source d o w with
    | error e w => rfl
    | tooDeep => rfl
    | ok r w =>
      have hplace := place_fst o r d spans w
      simp only [ih]
      cases rules.resolutions render source d spans rest (place o r d spans w).2 with
      | error e w => rfl
      | tooDeep => rfl
      | ok rs w => simp only [Result.map, hplace, List.zipWith_cons_cons]

theorem renderSegments_eq_map (segments : List Segment) (w : World σ) :
    rules.renderSegments render source segments d w =
      (rules.resolveAll render source d
        ((segments.filterMap Segment.occurrence?).map (·.span))
        (segments.filterMap Segment.occurrence?) w).map (Segment.assemble source segments) := by
  rw [renderSegments]
  cases rules.resolveAll render source d
    ((segments.filterMap Segment.occurrence?).map (·.span))
    (segments.filterMap Segment.occurrence?) w <;> rfl

theorem length_of_resolutions {os : List Occurrence} {w w' : World σ} {rs : List Resolved}
    (h : rules.resolutions render source d spans os w = .ok rs w') : rs.length = os.length := by
  induction os generalizing w rs with
  | nil =>
    cases h
    rfl
  | cons o rest ih =>
    rw [resolutions] at h
    split at h
    · cases h
    · cases h
    · split at h
      · cases h
      · cases h
      · rename_i hrest
        cases h
        exact congrArg (· + 1) (ih hrest)

end Rules

/-! ## Slots -/

namespace Slot

theorem map_span_slots (d : Document) (spans : List Span) {os : List Occurrence}
    {rs : List Resolved} (hlen : rs.length = os.length) :
    (List.zipWith (Slot.of d spans) os rs).map (·.span) = os.map (·.span) := by
  induction os generalizing rs with
  | nil => rfl
  | cons o os ih =>
    cases rs with
    | nil => cases hlen
    | cons r rs =>
      rw [List.zipWith_cons_cons, List.map_cons, List.map_cons, ih (Nat.succ.inj hlen)]
      rfl

theorem exists_of_mem_slots {d : Document} {spans : List Span} {os : List Occurrence}
    {rs : List Resolved} {s : Slot} (hs : s ∈ List.zipWith (Slot.of d spans) os rs) :
    ∃ o ∈ os, ∃ r ∈ rs, s = Slot.of d spans o r := by
  rw [← List.map_uncurry_zip_eq_zipWith] at hs
  obtain ⟨⟨o, r⟩, hor, rfl⟩ := List.mem_map.1 hs
  exact ⟨o, (List.of_mem_zip hor).1, r, (List.of_mem_zip hor).2, rfl⟩

/-- The boundaries of the elements of a text lie in it. -/
theorem boundary?_le {hi : Nat} {markup : List Token} {d : Document} (hd : d.IsForest hi markup)
    {id : ElementId} {e : Element} (he : d.element? id = some e) {placement : Placement} {a : Nat}
    (ha : placement.boundary? e = some a) : a ≤ hi := by
  have hstart := hd.startTag_lt he
  have hstop := hd.stop_bounds he
  cases placement with
  | inline => cases ha
  | split => cases ha
  | before =>
    cases ha
    omega
  | after =>
    cases ha
    exact hstop.2

/-- The occurrences of a text, with their anchors, fit it. -/
theorem fit_slots (source : Text) (pairs : Text → Bool) {rs : List Resolved}
    (hlen : rs.length = (Scan.ofText source pairs).occurrences.length) :
    Fit source.length (List.zipWith
      (Slot.of (Document.ofMarkup source (Scan.ofText source pairs).markup)
        ((Scan.ofText source pairs).occurrences.map (·.span)))
      (Scan.ofText source pairs).occurrences rs) := by
  have hforest := Document.isForest_of_inv (Document.inv_ofText source pairs)
  obtain ⟨horder, hspan⟩ := Scan.occurrences_inOrder source pairs
  rw [← Scan.occurrences_ofText] at horder hspan
  generalize (Scan.ofText source pairs).occurrences = os at *
  constructor
  · rw [map_span_slots _ _ hlen]
    exact horder
  · intro s hs
    obtain ⟨o, ho, r, _, rfl⟩ := exists_of_mem_slots hs
    exact hspan o ho
  · intro s hs a ha
    obtain ⟨o, _, r, _, rfl⟩ := exists_of_mem_slots hs
    obtain ⟨_, id, e, _, he, hb, _⟩ := Occurrence.anchor?_eq_some_iff.1 ha
    exact boundary?_le hforest he hb
  · intro s hs a ha t ht
    obtain ⟨o, _, r, _, rfl⟩ := exists_of_mem_slots hs
    obtain ⟨p, hp, r', _, rfl⟩ := exists_of_mem_slots ht
    obtain ⟨_, _, _, _, _, _, hclear⟩ := Occurrence.anchor?_eq_some_iff.1 ha
    exact hclear p.span (List.mem_map_of_mem hp)

end Slot

end Shortcode
