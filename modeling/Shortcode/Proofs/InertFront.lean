import Shortcode.Proofs.FastPaths
import Shortcode.Proofs.Registering
import Shortcode.Proofs.ShiftedWalk
import Shortcode.Template

/-!
# Plain text in front only shifts

Text without a `[` and without a `<` in front of a document changes nothing of it but where it lies.
The tags, the markup and the elements are the same ones further on.  If offsets make no difference
to the handlers, the rendering is the same with the text in front of it: the same calls are made,
the same texts are moved or refused, and the same handler fails if one does.

    p.Inert → Alike World.SameButMessages ((renderer.renderWithin depth text w).map (p ++ ·))
      (renderer.renderWithin depth (p ++ text) w)                        (alike_renderWithin_append)

Only the messages of refused relocations, and the one about a text with nothing to do, tell offsets
and lengths.  They are logged all the same, each with its level.
-/

namespace Shortcode

open Byte
open Renderer (standard)
open Result (Alike)

variable {σ : Type}

/-! ## Handlers without offsets -/

/-- Handlers to which offsets make no difference: what one does to any world, and how it ends, is
the same with all offsets further on.  They register no others. -/
structure OffsetFree (P : Handler σ → Prop) : Prop where
  same : ∀ {handler}, P handler → ∀ (i : Invocation) (n : Nat) (render : Rendering σ) (w : World σ),
    (handler (i.shifted n)).run render w = (handler i).run render w
  registers : ∀ {handler}, P handler → ∀ i, (handler i).RegistersOnly P

/-- A handler that is one program for calls that differ in offsets alone, and registers no
handlers. -/
structure Handler.Blind (handler : Handler σ) : Prop where
  same : ∀ (i : Invocation) (n : Nat), handler (i.shifted n) = handler i
  registers : ∀ i, (handler i).RegistersOnly fun _ => False

theorem offsetFree_blind : OffsetFree (Handler.Blind (σ := σ)) where
  same h i n _ _ := by rw [h.same i n]
  registers h i := (h.registers i).mono fun _ => False.elim

/-- Templates ask for the arguments and the content alone. -/
theorem Template.blind_handler (template : Text) (placement : Option Placement) :
    (handler template placement : Handler σ).Blind where
  same _ _ := rfl
  registers i := by
    show (rendered template i fun text => .give text placement).RegistersOnly _
    unfold rendered
    cases i.content with
    | none => trivial
    | some content =>
      intro out
      cases out <;> trivial

/-! ## Worlds -/

namespace World

/-- All handlers of all registries satisfy `P`. -/
def HandledBy (P : Handler σ → Prop) (w : World σ) : Prop :=
  ∀ r tag handler, w.handler? r tag = some handler → P handler

/-- Two worlds that differ in the texts of their messages alone; one by one these have the same
levels. -/
structure SameButMessages (w v : World σ) : Prop where
  policy : w.policy = v.policy
  tables : w.tables = v.tables
  shared : w.shared = v.shared
  levels : w.log.map (·.level) = v.log.map (·.level)
  state : w.state = v.state

theorem SameButMessages.refl (w : World σ) : w.SameButMessages w := ⟨rfl, rfl, rfl, rfl, rfl⟩

/-- At the start there are no handlers. -/
theorem handledBy_newRegistry (P : Handler σ → Prop) (state : σ) (name : Text) :
    ((initial state).newRegistry name).2.HandledBy P := by
  intro r tag handler hfound
  rw [handler?_newRegistry_eq] at hfound
  cases hfound

theorem HandledBy.register {P : Handler σ → Prop} {w : World σ} (hw : w.HandledBy P)
    (r : Registry) (tag : Text) {handler : Handler σ} (h : P handler) :
    (w.register r tag handler).HandledBy P := by
  intro r' other found hfound
  rcases handler?_register hfound with rfl | hbefore
  · exact h
  · exact hw r' other found hbefore

theorem HandledBy.unregister {P : Handler σ → Prop} {w : World σ} (hw : w.HandledBy P)
    (r : Registry) (tag : Text) : (w.unregister r tag).2.HandledBy P := by
  intro r' other found hfound
  rw [handler?_unregister_eq] at hfound
  split at hfound
  · cases hfound
  · exact hw r' other found hfound

/-- Both worlds have the same handlers, which satisfy `P`, and differ in messages alone. -/
def BothBy (P : Handler σ → Prop) (w v : World σ) : Prop := w.SameButMessages v ∧ w.HandledBy P

namespace BothBy

variable {P : Handler σ → Prop} {w v : World σ}

theorem handler?_eq (h : BothBy P w v) (r : Registry) (tag : Text) :
    w.handler? r tag = v.handler? r tag :=
  congrFun (handler?_of_tables h.1.tables r) tag

theorem isRegistered_eq (h : BothBy P w v) (r : Registry) (tag : Text) :
    w.isRegistered r tag = v.isRegistered r tag :=
  congrArg Option.isSome (h.handler?_eq r tag)

/-- Messages of one level may have different texts. -/
theorem record (h : BothBy P w v) (level : LogLevel) (message message' : Text) :
    BothBy P (w.record level message) (v.record level message') := by
  refine ⟨⟨h.1.policy, h.1.tables, h.1.shared, ?_, h.1.state⟩, h.2⟩
  show (w.log ++ [LogRecord.mk level message]).map (·.level) =
    (v.log ++ [LogRecord.mk level message']).map (·.level)
  rw [List.map_append, List.map_append, h.1.levels]
  rfl

theorem modifyHandlers (h : w.SameButMessages v) (r : Registry)
    (f : TagMap (Handler σ) → TagMap (Handler σ)) :
    (w.modifyHandlers r f).SameButMessages (v.modifyHandlers r f) :=
  ⟨h.policy, congrArg (List.modify · r.id f) h.tables, h.shared, h.levels, h.state⟩

end BothBy

theorem kept_bothBy (P : Handler σ → Prop) : Kept P (BothBy P) where
  state h := h.1.state
  isRegistered h r tag := h.isRegistered_eq r tag
  setState h _ := ⟨⟨h.1.policy, h.1.tables, h.1.shared, h.1.levels, rfl⟩, h.2⟩
  setPolicy h _ := ⟨⟨rfl, h.1.tables, h.1.shared, h.1.levels, h.1.state⟩, h.2⟩
  register h r tag _ hP := ⟨BothBy.modifyHandlers (h.record ..).1 r _, h.2.register r tag hP⟩
  unregister h r tag := ⟨BothBy.modifyHandlers h.1 r _, h.2.unregister r tag⟩

end World

open World (BothBy)

/-! ## One tag -/

namespace Rules

variable {P : Handler σ → Prop} {render render' : Rendering σ} {rules : Rules} {p source : Text}
  {d : Document} {o : Occurrence} {w v : World σ}

theorem isActionable_shifted (h : BothBy P w v) (n : Nat) (o : Occurrence) :
    rules.isActionable (o.shifted n) v = rules.isActionable o w := by
  unfold isActionable
  rw [h.isRegistered_eq]
  rfl

/-- The text that an escaped tag stands for. -/
theorem unescaped_shifted (p source : Text) {o : Occurrence} (ho : o.span.start < o.span.stop) :
    (o.shifted p.length).unescaped (p ++ source) = o.unescaped source := by
  have hspan : (o.shifted p.length).innerSpan = o.innerSpan.shifted p.length :=
    congrArg₂ Span.mk (Nat.add_right_comm ..) (Nat.sub_add_comm (Nat.zero_lt_of_lt ho))
  rw [Occurrence.unescaped, hspan, Span.slice_shifted, Occurrence.unescaped]

section

variable (hP : OffsetFree P)
  (hrender : ∀ r text {w v}, BothBy P w v → Alike (BothBy P) (render r text w) (render' r text v))

include hP hrender

/-- A handler is told other offsets, which make no difference to it. -/
theorem alike_resolve_shifted (ho : o.span.start < o.span.stop) (h : BothBy P w v) :
    Alike (BothBy P) (rules.resolve render source d o w)
      (rules.resolve render' (p ++ source) (d.shifted p.length) (o.shifted p.length) v) := by
  have htext : (o.shifted p.length).text (p ++ source) = o.text source :=
    o.span.slice_shifted p source
  have hhandler : rules.handler? (o.shifted p.length) v = rules.handler? o w := by
    unfold handler?
    rw [h.handler?_eq]
    rfl
  unfold resolve
  show Alike _ _ (if o.escaped = true then _ else _)
  split
  · rw [unescaped_shifted p source ho]
    exact .ok h
  · rw [hhandler, htext]
    cases hfound : rules.handler? o w with
    | none => exact .ok h
    | some handler =>
      have hhandled : P handler := by
        unfold handler? at hfound
        split at hfound
        · cases hfound
        · exact h.2 _ _ _ hfound
      have hrun := Action.alike_run (World.kept_bothBy P) hrender
        (hP.registers hhandled (rules.invocation source d o)) h
      dsimp only
      rw [invocation_shifted, hP.same hhandled]
      exact hrun.resolved o

/-- A text that is moved goes to the same place, and one that is refused is so for the same
reason. -/
theorem alike_settle_shifted (spans : List Span) (ho : o.span.start < o.span.stop)
    (h : BothBy P w v) :
    Alike (BothBy P) ((rules.settle render source d spans o w).map (·.shifted p.length))
      (rules.settle render' (p ++ source) (d.shifted p.length) (spans.map (·.shifted p.length))
        (o.shifted p.length) v) := by
  rw [settle, settle, Result.map_bind]
  refine (alike_resolve_shifted hP hrender ho h).bind fun resolved {w v} h => ?_
  unfold place
  rw [Occurrence.destination_shifted]
  cases o.destination resolved.placement d spans with
  | inline => exact .ok h
  | anchor a => exact .ok h
  | refused why =>
    refine .ok ?_
    dsimp only [Destination.shifted]
    rw [why.level_shifted]
    exact h.record ..

/-! ## One text -/

/-- A document with inert text in front is put together with that text in front. -/
theorem alike_renderSegments_append (hp : p.Inert) (pairs : Text → Bool) (h : BothBy P w v) :
    Alike (BothBy P)
      ((rules.renderSegments render source (Scan.ofText source pairs).segments
        (Document.ofMarkup source (Scan.ofText source pairs).markup) w).map (p ++ ·))
      (rules.renderSegments render' (p ++ source) (Scan.ofText (p ++ source) pairs).segments
        (Document.ofMarkup (p ++ source) (Scan.ofText (p ++ source) pairs).markup) v) := by
  have hos := Scan.occurrences_append hp source pairs
  have hspan := (Scan.occurrences_inOrder source pairs).2
  rw [← Scan.occurrences_ofText] at hspan
  generalize hd : Document.ofMarkup source (Scan.ofText source pairs).markup = d
  generalize hoccurrences : (Scan.ofText source pairs).occurrences = os at hos hspan
  have hsettled : Alike (BothBy P)
      ((rules.resolveAll render source d (os.map (·.span)) os w).map
        (List.map (Placed.shifted p.length)))
      (rules.resolveAll render' (p ++ source) (d.shifted p.length)
        ((os.map (·.shifted p.length)).map (·.span)) (os.map (·.shifted p.length)) v) := by
    have hspans : (os.map (·.shifted p.length)).map (·.span) =
        (os.map (·.span)).map (·.shifted p.length) := by
      rw [List.map_map, List.map_map]
      rfl
    rw [hspans]
    refine alike_resolveAll_map (List.forall₂_map_right_iff.2 (List.forall₂_same.2 ?_)) h
    intro o ho w v h
    exact alike_settle_shifted hP hrender _ (hspan o ho) h
  have hassemble : ∀ placed u,
      rules.resolveAll render source d (os.map (·.span)) os w = .ok placed u →
      Segment.assemble (p ++ source) (Scan.ofText (p ++ source) pairs).segments
          (placed.map (·.shifted p.length)) =
        p ++ Segment.assemble source (Scan.ofText source pairs).segments placed := by
    intro placed u hall
    rw [resolveAll_eq] at hall
    cases hrs : rules.resolutions render source d (os.map (·.span)) os w with
    | error e w => rw [hrs] at hall; cases hall
    | tooDeep => rw [hrs] at hall; cases hall
    | ok rs w =>
      rw [hrs] at hall
      cases hall
      have hlen := length_of_resolutions hrs
      have hlen' : rs.length = (Scan.ofText source pairs).occurrences.length := by
        rw [hlen, hoccurrences]
      have hfit := Slot.fit_slots source pairs hlen'
      rw [hd, hoccurrences] at hfit
      rw [Scan.segments_eq_segmentsFrom, Scan.segments_eq_segmentsFrom, hos, hoccurrences,
        ← Slot.map_placed_slots]
      exact Segment.assemble_shifted p hfit (Slot.map_span_slots d _ hlen).symm
  have hos' : (Scan.ofText (p ++ source) pairs).segments.filterMap Segment.occurrence? =
      os.map (·.shifted p.length) := hos
  have hos'' : (Scan.ofText source pairs).segments.filterMap Segment.occurrence? = os :=
    hoccurrences
  rw [Document.ofMarkup_append hp, hd, renderSegments_eq_map, renderSegments_eq_map, hos', hos'']
  have hboth :=
    hsettled.map (Segment.assemble (p ++ source) (Scan.ofText (p ++ source) pairs).segments)
  cases hall : rules.resolveAll render source d (os.map (·.span)) os w with
  | error e w => rwa [hall] at hboth
  | tooDeep => rwa [hall] at hboth
  | ok placed u =>
    rw [hall] at hboth
    rw [Result.map, Result.map, ← hassemble placed u hall]
    exact hboth

end

end Rules

/-! ## Whole renderings -/

namespace Renderer

variable {P : Handler σ → Prop} {render render' : Rendering σ} {renderer : Renderer σ}
  {p text : Text} {w v : World σ}

/-- A text is plain iff it holds no `[`. -/
theorem isPlain_eq (text : Text) : isPlain text = !text.contains leftBracket := by
  unfold isPlain
  cases hblank : text.isBlank with
  | false => rfl
  | true => simpa using Text.leftBracket_notMem_of_isBlank hblank

theorem isPlain_append (hp : p.Inert) (text : Text) : isPlain (p ++ text) = isPlain text := by
  have hfront : p.contains leftBracket = false := by simpa using hp.leftBracket_notMem
  rw [isPlain_eq, isPlain_eq, List.contains_append, hfront, Bool.false_or]

theorem scan_eq_of_bothBy (h : BothBy P w v) (text : Text) :
    renderer.scan text v = renderer.scan text w :=
  congrArg (Scan.ofText text) (funext fun tag => (h.isRegistered_eq _ tag).symm)

theorem rules_eq_of_bothBy (h : BothBy P w v) : renderer.rules v = renderer.rules w := by
  rw [rules, rules, h.1.policy]

theorem hasActionable_append (hp : p.Inert) (h : BothBy P w v) :
    renderer.hasActionable (p ++ text) v = renderer.hasActionable text w := by
  rw [hasActionable, hasActionable, scan_eq_of_bothBy h, rules_eq_of_bothBy h, scan, scan,
    Scan.occurrences_append hp, List.any_map]
  exact congrArg (List.any _) (funext fun o => Rules.isActionable_shifted h p.length o)

theorem alike_step_append (hp : p.Inert) (hP : OffsetFree P)
    (hrender : ∀ r text {w v}, BothBy P w v → Alike (BothBy P) (render r text w) (render' r text v))
    (hanalyzer : renderer.analyzer = .standard) (h : BothBy P w v) :
    Alike (BothBy P) ((renderer.step render text w).map (p ++ ·))
      (renderer.step render' (p ++ text) v) := by
  have hbusy : renderer.hasActionable (p ++ text) v = renderer.hasActionable text w :=
    hasActionable_append hp h
  cases hactionable : renderer.hasActionable text w with
  | true =>
    rw [step_of_busy hactionable, step_of_busy (hbusy.trans hactionable), thoroughStep,
      thoroughStep, scan_eq_of_bothBy h, rules_eq_of_bothBy h, hanalyzer]
    exact Rules.alike_renderSegments_append hP hrender hp _
      ⟨⟨h.1.policy, h.1.tables, h.1.shared, h.1.levels, h.1.state⟩, h.2⟩
  | false =>
    rw [step_of_idle hactionable, step_of_idle (hbusy.trans hactionable), isPlain_append hp]
    refine .ok ?_
    split
    · exact h
    · exact h.record ..

/-- The texts that handlers ask for are the same.  They are rendered alike, as texts with nothing in
front, so the induction is on the depth for all texts in front. -/
theorem alike_renderWithin_append (hp : p.Inert) (hP : OffsetFree P)
    (hanalyzer : renderer.analyzer = .standard) (depth : Nat) (h : BothBy P w v) :
    Alike (BothBy P) ((renderer.renderWithin depth text w).map (p ++ ·))
      (renderer.renderWithin depth (p ++ text) v) := by
  induction depth generalizing p text renderer w v with
  | zero => exact .tooDeep
  | succ depth ih =>
    refine alike_step_append hp hP (fun r inner {w v} h => ?_) hanalyzer h
    have hinner : Alike (BothBy P) (((standard r).renderWithin depth inner w).map ([] ++ ·))
        ((standard r).renderWithin depth inner v) := ih Text.inert_nil rfl h
    have hsame : (([] : Text) ++ ·) = id := funext List.nil_append
    rwa [hsame, Result.map_id] at hinner

end Renderer

/-! ## Main statement -/

/-- Everything about `p ++ text` is as about `text` alone, further on by the length of `p`. -/
structure Text.Shifts (σ : Type) (p text : Text) : Prop where
  occurrences : ∀ pairs, (Scan.ofText (p ++ text) pairs).occurrences =
    (Scan.ofText text pairs).occurrences.map (·.shifted p.length)
  markup : ∀ pairs, (Scan.ofText (p ++ text) pairs).markup =
    (Scan.ofText text pairs).markup.map (·.shifted p.length)
  elements : ∀ pairs, Document.ofMarkup (p ++ text) (Scan.ofText (p ++ text) pairs).markup =
    (Document.ofMarkup text (Scan.ofText text pairs).markup).shifted p.length
  /-- With handlers to which offsets make no difference, the text in front comes through. -/
  rendering : ∀ {P : Handler σ → Prop} {renderer : Renderer σ} {w : World σ}, OffsetFree P →
    w.HandledBy P → renderer.analyzer = .standard → ∀ depth,
      Alike World.SameButMessages ((renderer.renderWithin depth text w).map (p ++ ·))
        (renderer.renderWithin depth (p ++ text) w)

/-- **Plain text in front only shifts.** -/
theorem Text.shifts_of_inert {p : Text} (hp : p.Inert) (σ : Type) (text : Text) :
    Text.Shifts σ p text where
  occurrences := Scan.occurrences_append hp text
  markup pairs := by rw [Scan.markup_ofText, Scan.markup_ofText, Scan.tokens_append hp]
  elements := Document.ofMarkup_append hp text
  rendering hP hw hanalyzer depth :=
    (Renderer.alike_renderWithin_append hp hP hanalyzer depth ⟨.refl _, hw⟩).mono fun _ _ h => h.1

/-- Tags in an attribute value and in a script, an escaped one and one whose text is moved, with the
content of another, behind text of characters of one and more bytes. -/
theorem Text.shifts_of_inert_relocated :
    (let r : Registry := ⟨0, []⟩;
    let template := fun t => (Template.handler (σ := Unit) (Text.ofString t));
    let w : World Unit := (((World.initial ()).newRegistry []).2.register r (Text.ofString "b")
      (template "(\x7bcontent\x7d)" (some .before))).register r (Text.ofString "c")
      (template "d" none);
    let p := Text.ofString "é]> 日";
    let text := Text.ofString "<p a='[c]'>[[c]] [b]x[c][/b]<script>[c]</script></p>";
    let out := Text.ofString "(xd)<p a='d'>[c] <script>d</script></p>";
    p.Inert ∧ Text.Shifts Unit p text ∧ OffsetFree (Handler.Blind (σ := Unit)) ∧
      w.HandledBy Handler.Blind ∧
      (Scan.ofText (p ++ text) fun _ => true).occurrences.map (·.span) =
        [⟨14, 17⟩, ⟨19, 24⟩, ⟨25, 36⟩, ⟨44, 47⟩] ∧
      ((standard r).render text w).value? = some out ∧
      ((standard r).render (p ++ text) w).value? = some (p ++ out)) := by
  intro r template w p text out
  have hp : p.Inert := ⟨by decide +kernel, by decide +kernel⟩
  have hw : w.HandledBy Handler.Blind :=
    ((World.handledBy_newRegistry _ () []).register r _ (Template.blind_handler _ _)).register r _
      (Template.blind_handler _ _)
  exact ⟨hp, Text.shifts_of_inert hp Unit text, offsetFree_blind, hw, by decide +kernel,
    by decide +kernel, by decide +kernel⟩

end Shortcode
