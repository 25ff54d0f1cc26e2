import Shortcode.Proofs.DoubledBrackets
import Shortcode.Proofs.Snapshot

/-!
# Each rendering takes one level of escape away

A tag in `n + 1` pairs of brackets, or an open tag and its close tag in them, is one escape with `n`
pairs of brackets around it.  An escape stands for its text with one bracket less at each end,
whatever is registered and under every policy.  So a rendering gives the text with one pair of
brackets less, and calls nothing.

    renderer.Gives w (inBrackets (n + 1) tag) (inBrackets n tag)       (escapes_lose_one_level)
-/

namespace Shortcode

open Byte

variable {σ : Type}

/-! ## Texts whose tags are escapes -/

namespace Rules

variable {render : Rendering σ} {rules : Rules} {source : Text} {d : Document} {spans : List Span}

theorem resolveAll_of_escaped {os : List Occurrence} (h : ∀ o ∈ os, o.escaped = true)
    (w : World σ) :
    rules.resolveAll render source d spans os w =
      .ok (os.map fun o => ⟨o.unescaped source, none⟩) w := by
  induction os with
  | nil => rfl
  | cons o rest ih =>
    obtain ⟨ho, hrest⟩ := List.forall_mem_cons.1 h
    rw [resolveAll_of_inline (resolve_of_escaped ho), ih hrest]
    rfl

end Rules

/-- The text around an only tag is copied. -/
theorem Segment.assemble_single (source : Text) (o : Occurrence) (t : Text) :
    assemble source (Scan.segmentsFrom source.length 0 [o]) [⟨t, none⟩] =
      (Span.mk 0 o.span.start).slice source ++
        (t ++ (Span.mk o.span.stop source.length).slice source) := by
  have hlast : Scan.segmentsFrom source.length o.span.stop [] =
      literalRun o.span.stop source.length ++ [] := (List.append_nil _).symm
  show write source [] (Scan.segmentsFrom source.length 0 [o]) [t] = _
  rw [segmentsFrom_cons, write_literalRun, write, hlast, write_literalRun, write, List.append_nil]

namespace Renderer

/-- However deeply texts may be rendered inside each other, rendering `text` gives `out`; no handler
is called, and nothing changes but what the search for elements does to the state of the host. -/
structure Gives (renderer : Renderer σ) (w : World σ) (text out : Text) : Prop where
  rendered : ∀ depth,
    renderer.renderWithin (depth + 1) text w = .ok out (renderer.analyzed text w).2
  /-- A host that hears the rendering notes no call. -/
  unheard : ∀ depth noted, renderer.heard.renderWithin (depth + 1) text (w.heard noted 0) =
    .ok out ((renderer.analyzed text w).2.heard noted 0)

variable {renderer : Renderer σ} {text : Text} {w : World σ} {o : Occurrence}

/-- A text whose only tag is an escape. -/
theorem gives_of_escaped (hos : (renderer.scan text w).occurrences = [o])
    (ho : o.escaped = true) :
    renderer.Gives w text ((Span.mk 0 o.span.start).slice text ++
      (o.unescaped text ++ (Span.mk o.span.stop text.length).slice text)) := by
  have hbusy : renderer.hasActionable text w = true := by
    rw [hasActionable, hos, List.any_cons, Rules.isActionable, ho]
    rfl
  have hsegments : (renderer.scan text w).segments = Scan.segmentsFrom text.length 0 [o] := by
    rw [← hos]
    exact Scan.segments_eq_segmentsFrom ..
  have hrender : ∀ {τ : Type} (render : Rendering τ) (v : World τ),
      (renderer.rules w).renderSegments render text (renderer.scan text w).segments
        (renderer.analyzed text w).1 v =
          .ok ((Span.mk 0 o.span.start).slice text ++
            (o.unescaped text ++ (Span.mk o.span.stop text.length).slice text)) v := by
    intro τ render v
    have hall : ∀ o' ∈ (renderer.scan text w).segments.filterMap Segment.occurrence?,
        o'.escaped = true := by
      intro o' ho'
      have hmem : o' ∈ (renderer.scan text w).occurrences := ho'
      rw [hos] at hmem
      rwa [List.mem_singleton.1 hmem]
    rw [Rules.renderSegments_eq_map, Rules.resolveAll_of_escaped hall, hsegments,
      Scan.segmentsFrom_occurrence?]
    exact congrArg (Result.ok · v) (Segment.assemble_single text o _)
  constructor
  · intro depth
    rw [renderWithin_of_busy hbusy]
    exact hrender _ _
  · intro depth noted
    rw [renderWithin_heard_of_busy hbusy]
    exact hrender _ _

end Renderer

/-! ## Brackets around a tag -/

theorem Span.slice_front (a b : Text) : (Span.mk 0 a.length).slice (a ++ b) = a := by
  rw [slice, length, List.drop_zero]
  exact List.take_left

theorem Span.slice_back (a b : Text) :
    (Span.mk a.length (a ++ b).length).slice (a ++ b) = b := by
  rw [slice, length, List.drop_left]
  exact List.take_of_length_le (by simp)

/-- A part of a text, with the lengths of what stands in front of it and of itself. -/
theorem Span.slice_middle (a b c : Text) :
    (Span.mk a.length (a.length + b.length)).slice (a ++ (b ++ c)) = b := by
  rw [slice, length, List.drop_left, Nat.add_sub_cancel_left, List.take_left]

namespace Renderer

variable {renderer : Renderer σ} {w : World σ} {body : Text} {n : Nat} {o : Occurrence}

/-- The innermost pair of brackets is taken away. -/
theorem gives_inBrackets
    (hos : (renderer.scan (body.inBrackets (n + 1)) w).occurrences = [o]) (ho : o.escaped = true)
    (hspan : o.span = ⟨n, n + 1 + body.length + 1⟩) :
    renderer.Gives w (body.inBrackets (n + 1)) (body.inBrackets n) := by
  have hopen : List.replicate (n + 1) leftBracket = List.replicate n leftBracket ++ [leftBracket] :=
    List.replicate_succ'
  have hfront : (Span.mk 0 n).slice (body.inBrackets (n + 1)) = List.replicate n leftBracket := by
    have hslice := Span.slice_front (List.replicate n leftBracket)
      ([leftBracket] ++ (body ++ List.replicate (n + 1) rightBracket))
    rwa [← List.append_assoc, ← hopen, List.length_replicate] at hslice
  have hinner : o.unescaped (body.inBrackets (n + 1)) = body := by
    have hslice := Span.slice_middle (List.replicate (n + 1) leftBracket) body
      (List.replicate (n + 1) rightBracket)
    rw [List.length_replicate] at hslice
    rw [Occurrence.unescaped, Occurrence.innerSpan, hspan]
    exact hslice
  have hback : (Span.mk (n + 1 + body.length + 1) (body.inBrackets (n + 1)).length).slice
      (body.inBrackets (n + 1)) = List.replicate n rightBracket := by
    have hslice := Span.slice_back
      (List.replicate (n + 1) leftBracket ++ (body ++ [rightBracket]))
      (List.replicate n rightBracket)
    have htext : List.replicate (n + 1) leftBracket ++ (body ++ [rightBracket]) ++
        List.replicate n rightBracket = body.inBrackets (n + 1) := by
      rw [List.append_assoc, List.append_assoc]
      rfl
    have hlength : (List.replicate (n + 1) leftBracket ++ (body ++ [rightBracket])).length =
        n + 1 + body.length + 1 := by
      simp only [List.length_append, List.length_replicate, List.length_singleton, Nat.add_assoc]
    rwa [htext, hlength] at hslice
  have hgives := gives_of_escaped hos ho
  rw [hspan, hinner, hfront, hback] at hgives
  exact hgives

/-- **Each rendering takes one level of escape away**, with every registry, under every policy and
in every world.  A tag in `n + 1` pairs of brackets becomes the tag in `n` pairs, and so do an open
tag and its close tag with text between them that holds no bracket and no `<`.  And in every text an
escape starts with `[[` and ends with `]]`, and becomes its text with one bracket less at each end;
neither the registry nor the policy is asked. -/
theorem escapes_lose_one_level (renderer : Renderer σ) (w : World σ) :
    (∀ n tag b, Bracket.ReadWhole tag b →
      renderer.Gives w (Text.inBrackets (n + 1) tag) (Text.inBrackets n tag)) ∧
    (∀ n tag b arguments inner, Bracket.ReadWhole tag b → b.kind = .opening arguments false →
      leftBracket ∉ inner → rightBracket ∉ inner → less ∉ inner →
        renderer.Gives w (Text.inBrackets (n + 1) (Scan.pairText tag inner b.name))
          (Text.inBrackets n (Scan.pairText tag inner b.name))) ∧
    ∀ source pairs, ∀ o ∈ (Scan.ofText source pairs).occurrences, o.escaped = true →
      ∃ inside,
        o.text source = leftBracket :: leftBracket :: (inside ++ [rightBracket, rightBracket]) ∧
        ∀ (render : Rendering σ) (rules : Rules) (d : Document) (u : World σ),
          rules.resolve render source d o u =
            .ok ⟨leftBracket :: (inside ++ [rightBracket]), .inline⟩ u := by
  refine ⟨fun n tag b hb => ?_, fun n tag b arguments inner hb hkind hleft hright hless => ?_,
    fun source pairs o ho hescaped => ?_⟩
  · obtain ⟨o, hos, ho, hspan⟩ := Scan.exists_occurrences_inBrackets n hb.written _
    exact gives_inBrackets hos ho hspan
  · have hwritten := hb.written
    rw [hkind] at hwritten
    obtain ⟨o, hos, ho, hspan⟩ :=
      Scan.exists_occurrences_inBrackets_pair n hwritten ⟨hleft, hless⟩ hright _
    exact gives_inBrackets hos ho hspan
  · obtain ⟨inside, htext, hunescaped⟩ := Scan.exists_text_of_escaped ho hescaped
    refine ⟨inside, htext, fun render rules d u => ?_⟩
    rw [Rules.resolve_of_escaped hescaped, hunescaped]

/-- A bracket in an argument does not count. -/
example : (render (.standard ⟨0, []⟩) (Text.ofString "[[[t a='[]]']x[/t]]]") (.initial ())).value? =
    some (Text.ofString "[[t a='[]]']x[/t]]") := by
  decide +kernel

end Renderer

end Shortcode
