import Shortcode.Proofs.Registering
import Shortcode.Settings

/-!
# Registering the handlers of settings

The handlers of settings are registered in the order of their tags, each after its template was
read.  If a template cannot be had, the handlers of the smaller tags are registered and nothing else
is done.  So what a registry holds afterwards is told by the tags that come before the first fault.

    FirstFault read specs tag e → registerEach read r specs w = (.error e, v),
      Registers read specs (· < tag) r w v                              (registerEach_of_firstFault)
-/

namespace Shortcode

variable {σ : Type}

/-! ## Templates and faults -/

namespace Settings

/-- The template of a handler: the one written in the settings, or else the text of the file. -/
inductive HasTemplate (read : FileReader) : TemplateSpec → Text → Prop
  | inline (template : ValidText) (placement : Option Placement) :
      HasTemplate read ⟨some template, none, placement⟩ template
  | file {path template : Text} (placement : Option Placement) (h : read.text path = .ok template) :
      HasTemplate read ⟨none, some path, placement⟩ template

/-- Why the handler of a tag has no template. -/
inductive Fault (read : FileReader) (tag : Text) : TemplateSpec → SettingsError → Prop
  | both (template : ValidText) (path : Text) (placement : Option Placement) :
      Fault read tag ⟨some template, some path, placement⟩ (.templateSource tag)
  | neither (placement : Option Placement) :
      Fault read tag ⟨none, none, placement⟩ (.templateSource tag)
  | unreadable {path : Text} {cause : FileError} (placement : Option Placement)
      (h : read.text path = .error cause) :
      Fault read tag ⟨none, some path, placement⟩ (.templateUnreadable tag path cause)

variable {read : FileReader} {tag template : Text} {spec : TemplateSpec} {e : SettingsError}

theorem HasTemplate.body_eq (h : HasTemplate read spec template) (tag : Text) :
    body read tag spec = .ok template := by
  cases h with
  | inline => rfl
  | file placement h => simp only [body, h]

theorem Fault.body_eq (h : Fault read tag spec e) : body read tag spec = .error e := by
  cases h with
  | both => rfl
  | neither => rfl
  | unreadable placement h => simp only [body, h]

theorem hasTemplate_or_fault (read : FileReader) (tag : Text) (spec : TemplateSpec) :
    (∃ template, HasTemplate read spec template) ∨ ∃ e, Fault read tag spec e := by
  obtain ⟨_ | template, _ | path, placement⟩ := spec
  · exact .inr ⟨_, .neither placement⟩
  · cases h : read.text path with
    | ok template => exact .inl ⟨template, .file placement h⟩
    | error cause => exact .inr ⟨_, .unreadable placement h⟩
  · exact .inl ⟨_, .inline template placement⟩
  · exact .inr ⟨_, .both template path placement⟩

/-- The message names the tag. -/
theorem Fault.names_tag (h : Fault read tag spec e) :
    Text.ofString "[" ++ tag ++ Text.ofString "]" <:+: e.message := by
  have hsource : Text.ofString "[" ++ tag ++ Text.ofString "]" <:+:
      SettingsError.message (.templateSource tag) :=
    ⟨Text.ofString "Handler ",
      Text.ofString " needs exactly one of \x60template\x60 or \x60file\x60",
      by simp [SettingsError.message, Text.ofString]⟩
  cases h with
  | both => exact hsource
  | neither => exact hsource
  | @unreadable path cause placement _ =>
    exact ⟨Text.ofString "Failed to read template for ",
      Text.ofString " at " ++ path ++ Text.ofString ": " ++ cause.message, by
        simp [SettingsError.message, Text.ofString]⟩

/-! ## What is registered -/

end Settings

/-- All that the handler gives goes to one place. -/
def Handler.GivesAt (placement : Option Placement) (handler : Handler σ) : Prop :=
  ∀ render invocation w replacement v,
    (handler invocation).run render w = .ok replacement v → replacement.placement = placement

theorem Template.givesAt_handler (template : Text) (placement : Option Placement) :
    (Template.handler (σ := σ) template placement).GivesAt placement := by
  intro render invocation w replacement v h
  rw [Template.handler, Template.rendered] at h
  cases hcontent : invocation.content with
  | none =>
    simp only [hcontent, Action.give, Action.run] at h
    cases h
    rfl
  | some content =>
    simp only [hcontent, Action.rendered, Action.run] at h
    cases hout : render invocation.registry content w with
    | ok out u =>
      rw [hout] at h
      cases h
      rfl
    | error e u =>
      rw [hout] at h
      cases h
    | tooDeep =>
      rw [hout] at h
      cases h

namespace Settings

/-- The world `v` is the world `w` with the handlers of the chosen among the configured tags
registered, and nothing else but the log changed. -/
structure Registers (read : FileReader) (specs : List (Text × TemplateSpec)) (chosen : Text → Prop)
    (r : Registry) (w v : World σ) : Prop where
  /-- The chosen tags have handlers that fill their templates and place the texts as configured. -/
  configured : ∀ tag spec, (tag, spec) ∈ specs → chosen tag →
    ∃ template handler, HasTemplate read spec template ∧ v.handler? r tag = some handler ∧
      handler = Template.handler template spec.placement ∧ handler.GivesAt spec.placement
  /-- All other tags have the handlers that they had. -/
  others : ∀ tag, (∀ spec, (tag, spec) ∈ specs → ¬ chosen tag) →
    v.handler? r tag = w.handler? r tag
  registries : ∀ r' : Registry, r'.id ≠ r.id → v.handler? r' = w.handler? r'
  shared : v.shared = w.shared
  policy : v.policy = w.policy
  state : v.state = w.state

/-- The tag is the smallest without a template, for this reason. -/
structure FirstFault (read : FileReader) (specs : List (Text × TemplateSpec)) (tag : Text)
    (e : SettingsError) : Prop where
  fault : ∃ spec, (tag, spec) ∈ specs ∧ Fault read tag spec e
  before : ∀ other spec, (other, spec) ∈ specs → other < tag →
    ∃ template, HasTemplate read spec template

variable {read : FileReader} {r : Registry} {w v : World σ} {specs : List (Text × TemplateSpec)}
  {chosen : Text → Prop} {tag : Text} {spec : TemplateSpec}

theorem Registers.nil (w : World σ) : Registers read [] chosen r w w where
  configured _ _ h := nomatch h
  others _ _ := rfl
  registries _ _ := rfl
  shared := rfl
  policy := rfl
  state := rfl

/-- What one registration and those of other tags after it make of a registry. -/
theorem Registers.cons {template : Text} (hr : r.id < w.tables.length)
    (htemplate : HasTemplate read spec template) (htag : chosen tag)
    (hnew : ∀ spec', (tag, spec') ∉ specs)
    (h : Registers read specs chosen r
      (w.register r tag (Template.handler template spec.placement)) v) :
    Registers read ((tag, spec) :: specs) chosen r w v where
  configured other spec' hmem hother := by
    rcases List.mem_cons.1 hmem with heq | hmem
    · cases heq
      have hfound := h.others tag fun spec' hmem => absurd hmem (hnew spec')
      rw [World.handler?_register_eq, if_pos ⟨rfl, hr, rfl⟩] at hfound
      exact ⟨template, _, htemplate, hfound, rfl, Template.givesAt_handler _ _⟩
    · exact h.configured other spec' hmem hother
  others other hother := by
    have hne : other ≠ tag := by
      rintro rfl
      exact hother spec List.mem_cons_self htag
    rw [h.others other fun spec' hmem => hother spec' (List.mem_cons_of_mem _ hmem),
      World.handler?_register_of_ne hne]
  registries r' hr' := by
    rw [h.registries r' hr']
    funext other
    rw [World.handler?_register_eq, if_neg fun hin => hr' hin.1.symm]
  shared := h.shared
  policy := h.policy
  state := h.state

/-! ## Registering up to the first fault -/

/-- Handlers with templates are registered, and then the rest of the list is gone through. -/
theorem registerEach_append (hr : r.id < w.tables.length)
    (hsorted : specs.Pairwise fun a b => a.1 < b.1)
    (hall : ∀ tag spec, (tag, spec) ∈ specs → ∃ template, HasTemplate read spec template)
    (rest : List (Text × TemplateSpec)) :
    ∃ v, registerEach read r (specs ++ rest) w = registerEach read r rest v ∧
      Registers read specs (fun _ => True) r w v := by
  induction specs generalizing w with
  | nil => exact ⟨w, rfl, .nil w⟩
  | cons first specs ih =>
    obtain ⟨tag, spec⟩ := first
    obtain ⟨hfirst, hsorted⟩ := List.pairwise_cons.1 hsorted
    obtain ⟨template, htemplate⟩ := hall tag spec List.mem_cons_self
    have hnew : ∀ spec', (tag, spec') ∉ specs := fun spec' hmem =>
      List.lt_irrefl _ (hfirst (tag, spec') hmem)
    have hr' : r.id < (w.register r tag
        (Template.handler template spec.placement)).tables.length := by
      rwa [World.register, World.modifyHandlers, List.length_modify]
    obtain ⟨v, hv, hregisters⟩ :=
      ih hr' hsorted fun other spec' hmem => hall other spec' (List.mem_cons_of_mem _ hmem)
    refine ⟨v, ?_, hregisters.cons hr htemplate trivial hnew⟩
    rw [List.cons_append, registerEach, htemplate.body_eq]
    exact hv

/-- Among tags in order there is a first without a template, unless all have one. -/
theorem exists_firstFault (hsorted : specs.Pairwise fun a b => a.1 < b.1)
    (hnot : ¬ ∀ tag spec, (tag, spec) ∈ specs → ∃ template, HasTemplate read spec template) :
    ∃ tag e, FirstFault read specs tag e := by
  induction specs with
  | nil => exact absurd (fun _ _ h => nomatch h) hnot
  | cons first specs ih =>
    obtain ⟨tag, spec⟩ := first
    obtain ⟨hfirst, hsorted⟩ := List.pairwise_cons.1 hsorted
    rcases hasTemplate_or_fault read tag spec with htemplate | ⟨e, hfault⟩
    · obtain ⟨other, e, ⟨spec', hmem, hfault⟩, hbefore⟩ := ih hsorted fun hall =>
        hnot fun other spec' hmem => by
          rcases List.mem_cons.1 hmem with heq | hmem
          · cases heq
            exact htemplate
          · exact hall other spec' hmem
      refine ⟨other, e, ⟨spec', List.mem_cons_of_mem _ hmem, hfault⟩,
        fun smaller spec'' hmem hlt => ?_⟩
      rcases List.mem_cons.1 hmem with heq | hmem
      · cases heq
        exact htemplate
      · exact hbefore smaller spec'' hmem hlt
    · refine ⟨tag, e, ⟨spec, List.mem_cons_self, hfault⟩, fun other spec' hmem hlt => ?_⟩
      -- no tag of the list comes before the first one
      rcases List.mem_cons.1 hmem with heq | hmem
      · cases heq
        exact absurd hlt (List.lt_irrefl _)
      · exact absurd hlt (List.lt_asymm (hfirst _ hmem))

theorem registerEach_of_firstFault (hr : r.id < w.tables.length)
    (hsorted : specs.Pairwise fun a b => a.1 < b.1) {e : SettingsError}
    (h : FirstFault read specs tag e) :
    (registerEach read r specs w).1 = .error e ∧
      Registers read specs (· < tag) r w (registerEach read r specs w).2 := by
  obtain ⟨⟨spec, hmem, hfault⟩, hbefore⟩ := h
  obtain ⟨front, rest, rfl⟩ := List.append_of_mem hmem
  obtain ⟨hfront, hrest, hcross⟩ := List.pairwise_append.1 hsorted
  have hlt : ∀ other spec', (other, spec') ∈ front → other < tag := fun other spec' hmem =>
    hcross _ hmem _ List.mem_cons_self
  have hlarge : ∀ other spec', (other, spec') ∈ (tag, spec) :: rest → ¬ other < tag := by
    intro other spec' hmem hlt
    rcases List.mem_cons.1 hmem with heq | hmem
    · cases heq
      exact List.lt_irrefl _ hlt
    · exact List.lt_asymm ((List.pairwise_cons.1 hrest).1 _ hmem) hlt
  obtain ⟨v, hv, hregisters⟩ := registerEach_append hr hfront
    (fun other spec' hmem =>
      hbefore other spec' (List.mem_append_left _ hmem) (hlt other spec' hmem))
    ((tag, spec) :: rest)
  rw [hv, registerEach, hfault.body_eq]
  refine ⟨rfl, { hregisters with configured := ?_, others := ?_ }⟩
  · intro other spec' hmem hless
    rcases List.mem_append.1 hmem with hmem | hmem
    · exact hregisters.configured other spec' hmem trivial
    · exact absurd hless (hlarge other spec' hmem)
  · intro other hother
    exact hregisters.others other fun spec' hmem =>
      absurd (hlt other spec' hmem) (hother spec' (List.mem_append_left _ hmem))

/-! ## Main statement -/

/-- **The handlers of settings are registered up to the first fault, and no further.** -/
theorem registerAll_exact (read : FileReader) (s : Settings) {r : Registry} {w : World σ}
    (hr : r.id < w.tables.length) :
    ((∀ tag spec, (tag, spec) ∈ s.handlers.entries → ∃ template, HasTemplate read spec template) →
      (s.registerAll read r w).1 = .ok () ∧
        Registers read s.handlers.entries (fun _ => True) r w (s.registerAll read r w).2) ∧
    ((¬ ∀ tag spec, (tag, spec) ∈ s.handlers.entries →
        ∃ template, HasTemplate read spec template) →
      ∃ tag e, FirstFault read s.handlers.entries tag e ∧
        Text.ofString "[" ++ tag ++ Text.ofString "]" <:+: e.message ∧
        (s.registerAll read r w).1 = .error e ∧
        Registers read s.handlers.entries (· < tag) r w (s.registerAll read r w).2) := by
  constructor
  · intro hall
    obtain ⟨v, hv, hregisters⟩ := registerEach_append hr s.handlers.sorted hall []
    rw [List.append_nil] at hv
    rw [registerAll, hv]
    exact ⟨rfl, hregisters⟩
  · intro hnot
    obtain ⟨tag, e, hfirst⟩ := exists_firstFault s.handlers.sorted hnot
    obtain ⟨_, _, hfault⟩ := hfirst.fault
    obtain ⟨herror, hregisters⟩ := registerEach_of_firstFault hr s.handlers.sorted hfirst
    exact ⟨tag, e, hfirst, hfault.names_tag, herror, hregisters⟩

/-- The file for `b` is no text, and `c` has neither template nor file.  The handler of `a` is
replaced, `b` keeps the one that it had. -/
theorem registerAll_exact_halfway :
    (let read : FileReader := fun _ => .ok [0xFF];
    let file : TemplateSpec := ⟨none, some (Text.ofString "t"), some .after⟩;
    let s : Settings := { Settings.default with
      handlers := .ofList [(Text.ofString "c", ⟨none, none, none⟩), (Text.ofString "b", file),
        (Text.ofString "a", ⟨some (.ofString "new"), none, some .before⟩)]
      tags_valid := by decide +kernel };
    let r : Registry := ⟨0, []⟩;
    let old : Handler Unit := Template.handler (Text.ofString "old") none;
    let w : World Unit := ((World.initial ()).newRegistry []).2.register r (Text.ofString "a") old
      |>.register r (Text.ofString "b") old;
    r.id < w.tables.length ∧
      ∃ tag e, FirstFault read s.handlers.entries tag e ∧
        Text.ofString "[" ++ tag ++ Text.ofString "]" <:+: e.message ∧
        (s.registerAll read r w).1 = .error e ∧
        e = .templateUnreadable (Text.ofString "b") (Text.ofString "t") .notText ∧
        Registers read s.handlers.entries (· < tag) r w (s.registerAll read r w).2) := by
  intro read file s r old w
  have hr : r.id < w.tables.length := by decide
  have hentries : s.handlers.entries = [(Text.ofString "a",
      ⟨some (.ofString "new"), none, some .before⟩), (Text.ofString "b", file),
      (Text.ofString "c", ⟨none, none, none⟩)] := by decide +kernel
  have hnot : ¬ ∀ tag spec, (tag, spec) ∈ s.handlers.entries →
      ∃ template, HasTemplate read spec template := by
    intro hall
    obtain ⟨_, h⟩ := hall (Text.ofString "c") ⟨none, none, none⟩ (by simp [hentries])
    cases h
  obtain ⟨tag, e, hfirst, hnames, herror, hregisters⟩ := (registerAll_exact read s hr).2 hnot
  have hresult : (s.registerAll read r w).1 =
      .error (.templateUnreadable (Text.ofString "b") (Text.ofString "t") .notText) := rfl
  have he := Except.error.inj (herror.symm.trans hresult)
  exact ⟨hr, tag, e, hfirst, hnames, herror, he, hregisters⟩

end Settings

end Shortcode
