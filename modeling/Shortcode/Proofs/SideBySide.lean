import Shortcode.Proofs.Anchors

/-!
# Renderings side by side

Two hosts run side by side when their worlds stay related whatever is rendered: `Likeness` says what
it takes, and `Result.Alike` that two computations end alike.  A likeness that every handler keeps
is kept by every rendering.

    l.Runs render render' → l.worlds w v →
      Alike l.worlds (rules.renderSegments render … w) (rules.renderSegments render' … v)
                                                                      (alike_renderSegments)
-/

namespace Shortcode

variable {σ τ : Type}

/-! ## Results -/

namespace Result

variable {ε α β γ : Type}

theorem map_id (x : Result σ ε α) : x.map id = x := by cases x <;> rfl

theorem map_map (f : α → β) (g : β → γ) (x : Result σ ε α) :
    (x.map f).map g = x.map fun a => g (f a) := by
  cases x <;> rfl

/-- Goes on with what a computation gives. -/
def bind (x : Result σ ε α) (next : α → World σ → Result σ ε β) : Result σ ε β :=
  match x with
  | .ok a w => next a w
  | .error e w => .error e w
  | .tooDeep => .tooDeep

theorem map_bind (x : Result σ ε α) (next : α → World σ → Result σ ε β) (f : β → γ) :
    (x.bind next).map f = x.bind fun a w => (next a w).map f := by
  cases x <;> rfl

theorem bind_map (x : Result σ ε α) (f : α → β) (next : β → World σ → Result σ ε γ) :
    (x.map f).bind next = x.bind fun a w => next (f a) w := by
  cases x <;> rfl

end Result

/-- Both computations end in the same way, with one value or error, in worlds that `R` relates. -/
inductive Result.Alike {ε α : Type} (R : World σ → World τ → Prop) :
    Result σ ε α → Result τ ε α → Prop
  | ok {a : α} {w : World σ} {v : World τ} : R w v → Alike R (.ok a w) (.ok a v)
  | error {e : ε} {w : World σ} {v : World τ} : R w v → Alike R (.error e w) (.error e v)
  | tooDeep : Alike R .tooDeep .tooDeep

namespace Result.Alike

variable {ε α : Type} {R S : World σ → World τ → Prop} {x : Result σ ε α} {y : Result τ ε α}

theorem refl {R : World σ → World σ → Prop} (hR : ∀ w, R w w) (x : Result σ ε α) : Alike R x x := by
  cases x with
  | ok a w => exact .ok (hR w)
  | error e w => exact .error (hR w)
  | tooDeep => exact .tooDeep

theorem mono (h : Alike R x y) (himp : ∀ w v, R w v → S w v) : Alike S x y := by
  cases h with
  | ok h => exact .ok (himp _ _ h)
  | error h => exact .error (himp _ _ h)
  | tooDeep => exact .tooDeep

theorem map {β : Type} (h : Alike R x y) (f : α → β) : Alike R (x.map f) (y.map f) := by
  cases h with
  | ok h => exact .ok h
  | error h => exact .error h
  | tooDeep => exact .tooDeep

/-- Computations that end alike go on alike. -/
theorem bind {β : Type} {next : α → World σ → Result σ ε β} {next' : α → World τ → Result τ ε β}
    (h : Alike R x y) (hnext : ∀ a {w v}, R w v → Alike R (next a w) (next' a v)) :
    Alike R (x.bind next) (y.bind next') := by
  cases h with
  | ok h => exact hnext _ h
  | error h => exact .error h
  | tooDeep => exact .tooDeep

theorem exists_of_ok {a : α} {w : World σ} (h : Alike R (.ok a w) y) :
    ∃ v, y = .ok a v ∧ R w v := by
  generalize hx : (.ok a w : Result σ ε α) = x at h
  cases h with
  | ok h =>
    cases hx
    exact ⟨_, rfl, h⟩
  | error _ => cases hx
  | tooDeep => cases hx

theorem exists_of_error {e : ε} {w : World σ} (h : Alike R (.error e w) y) :
    ∃ v, y = .error e v ∧ R w v := by
  generalize hx : (.error e w : Result σ ε α) = x at h
  cases h with
  | ok _ => cases hx
  | error h =>
    cases hx
    exact ⟨_, rfl, h⟩
  | tooDeep => cases hx

theorem eq_of_tooDeep (h : Alike R .tooDeep y) : y = .tooDeep := by
  generalize hx : (.tooDeep : Result σ ε α) = x at h
  cases h with
  | ok _ => cases hx
  | error _ => cases hx
  | tooDeep => rfl

/-- Both computations give the same value, or none. -/
theorem value?_eq (h : Alike R x y) : x.value? = y.value? := by
  cases h <;> rfl

end Result.Alike

open Result (Alike)

/-! ## Programs -/

/-- All handlers that a program registers satisfy `P`. -/
def Action.RegistersOnly (P : Handler σ → Prop) : Action σ → Prop
  | .done _ => True
  | .getState next => ∀ state, (next state).RegistersOnly P
  | .setState _ next => next.RegistersOnly P
  | .register _ _ handler next => P handler ∧ next.RegistersOnly P
  | .unregister _ _ next => ∀ found, (next found).RegistersOnly P
  | .isRegistered _ _ next => ∀ found, (next found).RegistersOnly P
  | .setPolicy _ next => next.RegistersOnly P
  | .render _ _ next => ∀ out, (next out).RegistersOnly P

theorem Action.RegistersOnly.mono {P Q : Handler σ → Prop} (himp : ∀ handler, P handler → Q handler)
    {a : Action σ} (h : a.RegistersOnly P) : a.RegistersOnly Q := by
  induction a with
  | done result => trivial
  | getState next ih => exact fun state => ih state (h state)
  | setState state next ih => exact ih h
  | register r tag handler next _ ih => exact ⟨himp _ h.1, ih h.2⟩
  | unregister r tag next ih => exact fun found => ih found (h found)
  | isRegistered r tag next ih => exact fun found => ih found (h found)
  | setPolicy policy next ih => exact ih h
  | render r text next ih => exact fun out => ih out (h out)

theorem Action.registersOnly_true (a : Action σ) : a.RegistersOnly fun _ => True := by
  induction a with
  | done result => trivial
  | getState next ih => exact ih
  | setState state next ih => exact ih
  | register r tag handler next _ ih => exact ⟨trivial, ih⟩
  | unregister r tag next ih => exact ih
  | isRegistered r tag next ih => exact ih
  | setPolicy policy next ih => exact ih
  | render r text next ih => exact ih

/-- Programs cannot tell related worlds apart, and their steps keep them related if the handlers
they register satisfy `P`. -/
structure World.Kept (P : Handler σ → Prop) (R : World σ → World σ → Prop) : Prop where
  state : ∀ {w v}, R w v → w.state = v.state
  isRegistered : ∀ {w v}, R w v → ∀ r tag, w.isRegistered r tag = v.isRegistered r tag
  setState : ∀ {w v}, R w v → ∀ state, R { w with state := state } { v with state := state }
  setPolicy : ∀ {w v}, R w v → ∀ policy, R { w with policy := policy } { v with policy := policy }
  register : ∀ {w v}, R w v → ∀ r tag {handler}, P handler →
    R (w.register r tag handler) (v.register r tag handler)
  unregister : ∀ {w v}, R w v → ∀ r tag, R (w.unregister r tag).2 (v.unregister r tag).2

/-- A program ends alike in related worlds, if the texts it asks for are rendered alike. -/
theorem Action.alike_run {P : Handler σ → Prop} {R : World σ → World σ → Prop}
    (hkept : World.Kept P R) {render render' : Rendering σ}
    (hrender : ∀ r text {w v}, R w v → Alike R (render r text w) (render' r text v)) {a : Action σ}
    (ha : a.RegistersOnly P) {w v : World σ} (h : R w v) :
    Alike R (a.run render w) (a.run render' v) := by
  induction a generalizing w v with
  | done result =>
    cases result with
    | ok replacement => exact .ok h
    | error failure => exact .error h
  | getState next ih =>
    rw [run, run, hkept.state h]
    exact ih _ (ha _) h
  | setState state next ih => exact ih ha (hkept.setState h state)
  | register r tag handler next _ ih => exact ih ha.2 (hkept.register h r tag ha.1)
  | unregister r tag next ih =>
    have hfound : (w.unregister r tag).1 = (v.unregister r tag).1 := hkept.isRegistered h r tag
    rw [run, run, hfound]
    exact ih _ (ha _) (hkept.unregister h r tag)
  | isRegistered r tag next ih =>
    rw [run, run, hkept.isRegistered h]
    exact ih _ (ha _) h
  | setPolicy policy next ih => exact ih ha (hkept.setPolicy h policy)
  | render r text next ih =>
    have hout := hrender r text h
    rw [run, run]
    generalize render r text w = x at hout ⊢
    generalize render' r text v = y at hout ⊢
    cases hout with
    | ok h => exact ih _ (ha _) h
    | error h => exact ih _ (ha _) h
    | tooDeep => exact .tooDeep

/-! ## Tags one at a time -/

/-- What an occurrence is resolved to by the way in which its handler ends. -/
def Occurrence.resolved (o : Occurrence) :
    Result σ Failure Replacement → Result σ RenderError Resolved
  | .ok r w => .ok ⟨r.text, r.placement.getD (.ofArguments o.arguments)⟩ w
  | .error failure w => .error ⟨o.name, failure⟩ w
  | .tooDeep => .tooDeep

/-- An occurrence is resolved alike if its handlers end alike. -/
theorem Result.Alike.resolved {R : World σ → World τ → Prop} {x : Result σ Failure Replacement}
    {y : Result τ Failure Replacement} (h : Alike R x y) (o : Occurrence) :
    Alike R (o.resolved x) (o.resolved y) := by
  cases h with
  | ok h => exact .ok h
  | error h => exact .error h
  | tooDeep => exact .tooDeep

namespace Rules

/-- Resolves an occurrence and settles where its text goes. -/
def settle (render : Rendering σ) (rules : Rules) (source : Text) (d : Document)
    (spans : List Span) (o : Occurrence) (w : World σ) : Result σ RenderError Placed :=
  (rules.resolve render source d o w).bind fun resolved u =>
    .ok (place o resolved d spans u).1 (place o resolved d spans u).2

section

variable {render : Rendering σ} {render' : Rendering τ} {rules rules' : Rules}
  {source source' : Text} {d d' : Document} {spans spans' : List Span} {os os' : List Occurrence}
  {R : World σ → World τ → Prop} {w : World σ} {v : World τ}

theorem resolveAll_cons (o : Occurrence) (rest : List Occurrence) (w : World σ) :
    rules.resolveAll render source d spans (o :: rest) w =
      (rules.settle render source d spans o w).bind fun placed u =>
        (rules.resolveAll render source d spans rest u).map (placed :: ·) := by
  rw [resolveAll, settle]
  cases rules.resolve render source d o w with
  | error e w => rfl
  | tooDeep => rfl
  | ok r w =>
    dsimp only [Result.bind]
    cases rules.resolveAll render source d spans rest (place o r d spans w).2 <;> rfl

/-- Occurrences that are settled alike one by one, up to a change of what is placed, are settled
alike in a row.  Text, elements and rules may differ. -/
theorem alike_resolveAll {change : Occurrence → Placed → Placed}
    (hsettle : List.Forall₂ (fun o o' => ∀ {w v}, R w v →
      Alike R ((rules.settle render source d spans o w).map (change o))
        (rules'.settle render' source' d' spans' o' v)) os os') (h : R w v) :
    Alike R ((rules.resolveAll render source d spans os w).map (List.zipWith change os))
      (rules'.resolveAll render' source' d' spans' os' v) := by
  induction hsettle generalizing w v with
  | nil => exact .ok h
  | @cons o o' rest rest' hhead _ ih =>
    rw [resolveAll_cons, resolveAll_cons, Result.map_bind]
    have hrest : ∀ placed {w v}, R w v →
        Alike R
          (((rules.resolveAll render source d spans rest w).map (List.zipWith change rest)).map
            (placed :: ·))
          ((rules'.resolveAll render' source' d' spans' rest' v).map (placed :: ·)) :=
      fun placed {_ _} h => (ih h).map _
    have hboth := (hhead h).bind hrest
    rw [Result.bind_map] at hboth
    simp only [Result.map_map] at hboth ⊢
    exact hboth

/-- Every occurrence is placed. -/
theorem length_of_resolveAll {placed : List Placed} {u : World σ}
    (h : rules.resolveAll render source d spans os w = .ok placed u) :
    placed.length = os.length := by
  rw [resolveAll_eq] at h
  cases hrs : rules.resolutions render source d spans os w with
  | error e w => rw [hrs] at h; cases h
  | tooDeep => rw [hrs] at h; cases h
  | ok rs w =>
    rw [hrs] at h
    cases h
    rw [List.length_zipWith, length_of_resolutions hrs, Nat.min_self]

/-- So they are if what is placed is changed in one way for all. -/
theorem alike_resolveAll_map {f : Placed → Placed}
    (hsettle : List.Forall₂ (fun o o' => ∀ {w v}, R w v →
      Alike R ((rules.settle render source d spans o w).map f)
        (rules'.settle render' source' d' spans' o' v)) os os') (h : R w v) :
    Alike R ((rules.resolveAll render source d spans os w).map (List.map f))
      (rules'.resolveAll render' source' d' spans' os' v) := by
  have hboth : Alike R ((rules.resolveAll render source d spans os w).map
      (List.zipWith (fun _ => f) os)) (rules'.resolveAll render' source' d' spans' os' v) :=
    alike_resolveAll hsettle h
  cases hall : rules.resolveAll render source d spans os w with
  | error e w => rwa [hall] at hboth
  | tooDeep => rwa [hall] at hboth
  | ok placed u =>
    rw [hall] at hboth
    have hzip : List.zipWith (fun _ => f) os placed = placed.map f := by
      have hlen := length_of_resolveAll hall
      apply List.ext_getElem
      · rw [List.length_zipWith, List.length_map, hlen, Nat.min_self]
      · simp
    rwa [Result.map, hzip] at hboth

/-- So they are if nothing is changed. -/
theorem alike_resolveAll_same
    (hsettle : List.Forall₂ (fun o o' => ∀ {w v}, R w v →
      Alike R (rules.settle render source d spans o w)
        (rules'.settle render' source' d' spans' o' v)) os os') (h : R w v) :
    Alike R (rules.resolveAll render source d spans os w)
      (rules'.resolveAll render' source' d' spans' os' v) := by
  have hboth : Alike R ((rules.resolveAll render source d spans os w).map (List.map id))
      (rules'.resolveAll render' source' d' spans' os' v) :=
    alike_resolveAll_map (hsettle.imp fun _ _ h {_ _} hw => by rw [Result.map_id]; exact h hw) h
  rwa [List.map_id_fun, Result.map_id] at hboth

end

section

variable {render : Rendering σ} {render' : Rendering τ} {rules rules' : Rules} {source : Text}
  {d : Document} {R : World σ → World τ → Prop} {w : World σ} {v : World τ}
  (hrecord : ∀ {w v}, R w v → ∀ level message, R (w.record level message) (v.record level message))

include hrecord

/-- The message about a refused relocation is logged in both worlds. -/
theorem related_place (o : Occurrence) (resolved : Resolved) (spans : List Span) (h : R w v) :
    R (place o resolved d spans w).2 (place o resolved d spans v).2 := by
  unfold place
  cases o.destination resolved.placement d spans with
  | inline => exact h
  | anchor a => exact h
  | refused why => exact hrecord h _ _

/-- An occurrence that is resolved alike is settled alike. -/
theorem alike_settle (o : Occurrence) (spans : List Span)
    (hresolve : Alike R (rules.resolve render source d o w) (rules'.resolve render' source d o v)) :
    Alike R (rules.settle render source d spans o w)
      (rules'.settle render' source d spans o v) := by
  refine hresolve.bind fun r {w v} h => ?_
  rw [place_fst, place_fst]
  exact .ok (related_place hrecord o r spans h)

/-- Documents whose tags are resolved alike are put together alike. -/
theorem alike_renderSegments (segments : List Segment)
    (hresolve : ∀ o ∈ segments.filterMap Segment.occurrence?, ∀ {w v}, R w v →
      Alike R (rules.resolve render source d o w) (rules'.resolve render' source d o v))
    (h : R w v) :
    Alike R (rules.renderSegments render source segments d w)
      (rules'.renderSegments render' source segments d v) := by
  rw [renderSegments_eq_map, renderSegments_eq_map]
  refine (alike_resolveAll_same ?_ h).map _
  exact List.forall₂_same.2 fun o ho {_ _} h => alike_settle hrecord o _ (hresolve o ho h)

end

end Rules

/-! ## Likenesses -/

/-- What two hosts have in common: which worlds belong together, and what a handler of the first is
for the second. -/
structure Likeness (σ τ : Type) where
  worlds : World σ → World τ → Prop
  handler : Handler σ → Handler τ
  handler?_eq : ∀ {w v}, worlds w v → ∀ r tag, v.handler? r tag = (w.handler? r tag).map handler
  record : ∀ {w v}, worlds w v → ∀ level message,
    worlds (w.record level message) (v.record level message)

namespace Likeness

/-- Both hosts render texts alike. -/
def Renders (l : Likeness σ τ) (render : Rendering σ) (render' : Rendering τ) : Prop :=
  ∀ r text {w v}, l.worlds w v → Alike l.worlds (render r text w) (render' r text v)

/-- Both hosts run handlers alike. -/
def Runs (l : Likeness σ τ) (render : Rendering σ) (render' : Rendering τ) : Prop :=
  ∀ handler invocation {w v}, l.worlds w v →
    Alike l.worlds ((handler invocation).run render w)
      ((l.handler handler invocation).run render' v)

variable {l : Likeness σ τ} {render : Rendering σ} {render' : Rendering τ} {rules : Rules}
  {source : Text} {d : Document} {w : World σ} {v : World τ}

theorem isRegistered_eq (h : l.worlds w v) (r : Registry) (tag : Text) :
    v.isRegistered r tag = w.isRegistered r tag := by
  show (v.handler? r tag).isSome = (w.handler? r tag).isSome
  rw [l.handler?_eq h, Option.isSome_map]

theorem isActionable_eq (h : l.worlds w v) (rules : Rules) (o : Occurrence) :
    rules.isActionable o v = rules.isActionable o w := by
  rw [Rules.isActionable, Rules.isActionable, l.isRegistered_eq h]

/-- A tag is given to the same handler in both worlds. -/
theorem handlerOf_eq (h : l.worlds w v) (rules : Rules) (o : Occurrence) :
    rules.handler? o v = (rules.handler? o w).map l.handler := by
  unfold Rules.handler?
  split
  · rfl
  · exact l.handler?_eq h _ _

/-- Documents whose tags are resolved alike are put together alike, whatever the rules. -/
theorem alike_renderSegments_of_resolve {rules' : Rules} (segments : List Segment)
    (hresolve : ∀ o ∈ segments.filterMap Segment.occurrence?, ∀ {w v}, l.worlds w v →
      Alike l.worlds (rules.resolve render source d o w) (rules'.resolve render' source d o v))
    (h : l.worlds w v) :
    Alike l.worlds (rules.renderSegments render source segments d w)
      (rules'.renderSegments render' source segments d v) :=
  Rules.alike_renderSegments l.record segments hresolve h

/-! ### Handlers that run alike -/

section

variable (hruns : l.Runs render render')

include hruns

theorem alike_resolve (o : Occurrence) (h : l.worlds w v) :
    Alike l.worlds (rules.resolve render source d o w) (rules.resolve render' source d o v) := by
  unfold Rules.resolve
  split
  · exact .ok h
  · rw [l.handlerOf_eq h]
    cases rules.handler? o w with
    | none => exact .ok h
    | some handler =>
      exact (hruns handler (rules.invocation source d o) h).resolved o

/-- Documents are put together alike. -/
theorem alike_renderSegments (segments : List Segment) (h : l.worlds w v) :
    Alike l.worlds (rules.renderSegments render source segments d w)
      (rules.renderSegments render' source segments d v) :=
  alike_renderSegments_of_resolve segments (fun o _ _ _ h => alike_resolve hruns o h) h

end

end Likeness

end Shortcode
