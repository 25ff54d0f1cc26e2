import Shortcode.Proofs.Changes
import Shortcode.Proofs.Hearing

/-!
# Traced renderings

A traced host notes each step by which a handler asks who handles a tag, or changes it, with the
answer that the step got.  Handlers cannot see what is noted, so a traced rendering ends as the
rendering does.  Steps through a handle of a registry that is not there are none: they change
nothing and are told that there is no handler.

What is noted says all about the handlers: the handler of a tag is the one that was registered last,
unless the tag was unregistered since, and each answer is what the notes before it say.

    Alike (World.Traces before …) (renderer.renderWithin depth text w)
      (renderer.traced.renderWithin depth text (w.traced []))            (alike_renderWithin_traced)
-/

namespace Shortcode

open Result (Alike)

variable {σ : Type}

/-! ## Events -/

/-- A step that asks who handles a tag or changes it. -/
inductive Event (σ : Type) where
  | register (registry : Registry) (tag : Text) (handler : Handler σ)
  /-- `found` is the answer whether there was a handler. -/
  | unregister (registry : Registry) (tag : Text) (found : Bool)
  | isRegistered (registry : Registry) (tag : Text) (found : Bool)

namespace Event

/-- The handle that the step was made through. -/
def registry : Event σ → Registry
  | .register r _ _ => r
  | .unregister r _ _ => r
  | .isRegistered r _ _ => r

/-- The change that the step made. -/
def change? : Event σ → Option (Change σ)
  | .register r tag handler => some (.register r tag handler)
  | .unregister r tag _ => some (.unregister r tag)
  | .isRegistered .. => none

/-- The handler that a tag was given last through any handle of the registry, unless it was taken
away since. -/
def handlerAfter (r : Registry) (tag : Text) (events : List (Event σ)) : Option (Handler σ) :=
  Change.handlerAfter r tag none (events.filterMap change?)

/-- Whether the answer of the step is what the events before it say. -/
def IsTrue (before : List (Event σ)) : Event σ → Prop
  | .register .. => True
  | .unregister r tag found => found = (handlerAfter r tag before).isSome
  | .isRegistered r tag found => found = (handlerAfter r tag before).isSome

/-- Each answer is what the events before it say. -/
inductive AllTrue (before : List (Event σ)) : List (Event σ) → Prop
  | nil : AllTrue before []
  | concat {events : List (Event σ)} {e : Event σ} :
    AllTrue before events → e.IsTrue (before ++ events) → AllTrue before (events ++ [e])

/-- The events in registries that are there, where `n` are. -/
def within (n : Nat) (events : List (Event σ)) : List (Event σ) :=
  events.filter fun e => e.registry.id < n

end Event

theorem Change.handlerAfter_append (r : Registry) (tag : Text) (found : Option (Handler σ))
    (a b : List (Change σ)) : handlerAfter r tag found (a ++ b) =
      handlerAfter r tag (handlerAfter r tag found a) b := by
  induction a generalizing found with
  | nil => rfl
  | cons c a ih => cases c <;> exact ih _

namespace Event

variable {r r' : Registry} {tag tag' : Text} {before events later : List (Event σ)} {e : Event σ}
  {n : Nat}

theorem handlerAfter_append : handlerAfter r tag (before ++ events) =
    Change.handlerAfter r tag (handlerAfter r tag before) (events.filterMap change?) := by
  rw [handlerAfter, List.filterMap_append, Change.handlerAfter_append]
  rfl

theorem handlerAfter_register (handler : Handler σ) :
    handlerAfter r tag (events ++ [.register r' tag' handler]) =
      if r'.id = r.id ∧ tag = tag' then some handler else handlerAfter r tag events :=
  handlerAfter_append

theorem handlerAfter_unregister (found : Bool) :
    handlerAfter r tag (events ++ [.unregister r' tag' found]) =
      if r'.id = r.id ∧ tag = tag' then none else handlerAfter r tag events :=
  handlerAfter_append

theorem handlerAfter_isRegistered (found : Bool) :
    handlerAfter r tag (events ++ [.isRegistered r' tag' found]) = handlerAfter r tag events :=
  handlerAfter_append

/-- Changes through handles of other registries. -/
theorem handlerAfter_of_others
    (h : ∀ e ∈ events, e.change?.isSome = true → e.registry.sameAs r = false) :
    handlerAfter r tag (before ++ events) = handlerAfter r tag before := by
  rw [handlerAfter_append]
  induction events with
  | nil => rfl
  | cons e events ih =>
    obtain ⟨he, hevents⟩ := List.forall_mem_cons.1 h
    have hrest := ih hevents
    cases e with
    | register r' tag' handler =>
      have hid : ¬ (r'.id = r.id ∧ tag = tag') := fun hin => beq_eq_false_iff_ne.1 (he rfl) hin.1
      show Change.handlerAfter r tag (if r'.id = r.id ∧ tag = tag' then some handler else _) _ = _
      rw [if_neg hid, hrest]
    | unregister r' tag' found =>
      have hid : ¬ (r'.id = r.id ∧ tag = tag') := fun hin => beq_eq_false_iff_ne.1 (he rfl) hin.1
      show Change.handlerAfter r tag (if r'.id = r.id ∧ tag = tag' then none else _) _ = _
      rw [if_neg hid, hrest]
    | isRegistered r' tag' found => exact hrest

theorem AllTrue.append (hevents : AllTrue before events)
    (hlater : AllTrue (before ++ events) later) : AllTrue before (events ++ later) := by
  induction hlater with
  | nil => rwa [List.append_nil]
  | concat _ he ih =>
    rw [← List.append_assoc]
    exact ih.concat (by rwa [← List.append_assoc])

theorem AllTrue.isTrue (h : AllTrue before events) {a b : List (Event σ)}
    (hevents : events = a ++ e :: b) : e.IsTrue (before ++ a) := by
  induction h generalizing b with
  | nil => exact absurd hevents (by simp)
  | @concat events last _ hlast ih =>
    rcases List.eq_nil_or_concat b with rfl | ⟨b', x, rfl⟩
    · obtain ⟨rfl, hx⟩ := List.append_inj' hevents rfl
      cases hx
      exact hlast
    · rw [List.concat_eq_append, ← List.cons_append, ← List.append_assoc] at hevents
      exact ih (List.append_inj' hevents rfl).1

theorem within_concat : within n (events ++ [e]) =
    if e.registry.id < n then within n events ++ [e] else within n events := by
  rw [within, List.filter_append, within]
  by_cases h : e.registry.id < n
  · rw [if_pos h, List.filter_cons_of_pos (by simpa using h)]
    rfl
  · rw [if_neg h, List.filter_cons_of_neg (by simpa using h)]
    exact List.append_nil _

end Event

/-! ## Traced hosts -/

/-- The state of a host, and the steps of handlers that were noted. -/
structure Traced (σ : Type) where
  state : σ
  /-- In the order in which they were made. -/
  events : List (Event σ)

/-- Notes a step. -/
def Action.noting (e : Event σ) (a : Action (Traced σ)) : Action (Traced σ) :=
  .getState fun s => .setState { s with events := s.events ++ [e] } a

/-- The same steps on a traced host. -/
def Action.traced : Action σ → Action (Traced σ)
  | .done result => .done result
  | .getState next => .getState fun s => (next s.state).traced
  | .setState state next => .getState fun s => .setState { s with state := state } next.traced
  | .register r tag handler next =>
    noting (.register r tag handler)
      (.register r tag (fun invocation => (handler invocation).traced) next.traced)
  | .unregister r tag next =>
    .unregister r tag fun found => noting (.unregister r tag found) (next found).traced
  | .isRegistered r tag next =>
    .isRegistered r tag fun found => noting (.isRegistered r tag found) (next found).traced
  | .setPolicy policy next => .setPolicy policy next.traced
  | .render r text next => .render r text fun out => (next out).traced

def Handler.traced (handler : Handler σ) : Handler (Traced σ) := fun invocation =>
  (handler invocation).traced

def Analyzer.traced (analyzer : Analyzer σ) : Analyzer (Traced σ) := fun source markup s =>
  ((analyzer source markup s.state).1, { s with state := (analyzer source markup s.state).2 })

def Renderer.traced (renderer : Renderer σ) : Renderer (Traced σ) :=
  ⟨renderer.registry, renderer.analyzer.traced, renderer.policy⟩

/-- The world of a traced host on which `events` are noted. -/
def World.traced (w : World σ) (events : List (Event σ)) : World (Traced σ) :=
  w.withHandlers Handler.traced ⟨w.state, events⟩

/-! ## What is noted -/

/-- The events say, after the events `before`, who handles which tag.  There are `n` registries,
those shared by name as in `shared`. -/
structure World.Tells (before : List (Event σ)) (n : Nat) (shared : TagMap Registry) (w : World σ)
    (events : List (Event σ)) : Prop where
  size : w.tables.length = n
  shared : w.shared = shared
  handler?_eq : ∀ r tag,
    w.handler? r tag = Event.handlerAfter r tag (before ++ Event.within n events)
  allTrue : Event.AllTrue before (Event.within n events)

namespace World.Tells

variable {before events : List (Event σ)} {n : Nat} {shared : TagMap Registry} {w v : World σ}

/-- The rest of the world does not matter. -/
theorem of_eq (h : w.Tells before n shared events) (htables : v.tables = w.tables)
    (hshared : v.shared = w.shared) : v.Tells before n shared events where
  size := htables ▸ h.size
  shared := hshared.trans h.shared
  handler?_eq r tag := by
    rw [← h.handler?_eq, handler?, handler?, handlers, handlers, htables]
  allTrue := h.allTrue

theorem isRegistered_eq (h : w.Tells before n shared events) (r : Registry) (tag : Text) :
    w.isRegistered r tag = (Event.handlerAfter r tag (before ++ Event.within n events)).isSome := by
  rw [← h.handler?_eq]
  rfl

theorem register (h : w.Tells before n shared events) (r : Registry) (tag : Text)
    (handler : Handler σ) :
    (w.register r tag handler).Tells before n shared (events ++ [.register r tag handler]) where
  size := (Change.length_tables_apply w (.register r tag handler)).trans h.size
  shared := h.shared
  handler?_eq r' other := by
    rw [handler?_register_eq, h.size, h.handler?_eq, Event.within_concat]
    by_cases hr : r.id < n
    · rw [if_pos (show (Event.register r tag handler).registry.id < n from hr), ← List.append_assoc,
        Event.handlerAfter_register]
      simp only [hr, true_and]
    · rw [if_neg (show ¬ (Event.register r tag handler).registry.id < n from hr),
        if_neg fun hin => hr hin.2.1]
  allTrue := by
    rw [Event.within_concat]
    split
    · exact h.allTrue.concat trivial
    · exact h.allTrue

theorem unregister (h : w.Tells before n shared events) (r : Registry) (tag : Text) :
    (w.unregister r tag).2.Tells before n shared
      (events ++ [.unregister r tag (w.isRegistered r tag)]) where
  size := (Change.length_tables_apply w (.unregister r tag)).trans h.size
  shared := h.shared
  handler?_eq r' other := by
    rw [handler?_unregister_eq, h.size, h.handler?_eq, Event.within_concat]
    by_cases hr : r.id < n
    · rw [if_pos (show (Event.unregister r tag _).registry.id < n from hr), ← List.append_assoc,
        Event.handlerAfter_unregister]
      simp only [hr, true_and]
    · rw [if_neg (show ¬ (Event.unregister r tag _).registry.id < n from hr),
        if_neg fun hin => hr hin.2.1]
  allTrue := by
    rw [Event.within_concat]
    split
    · exact h.allTrue.concat (h.isRegistered_eq r tag)
    · exact h.allTrue

theorem asked (h : w.Tells before n shared events) (r : Registry) (tag : Text) :
    w.Tells before n shared (events ++ [.isRegistered r tag (w.isRegistered r tag)]) where
  size := h.size
  shared := h.shared
  handler?_eq r' other := by
    rw [h.handler?_eq, Event.within_concat]
    split
    · rw [← List.append_assoc, Event.handlerAfter_isRegistered]
    · rfl
  allTrue := by
    rw [Event.within_concat]
    split
    · exact h.allTrue.concat (h.isRegistered_eq r tag)
    · exact h.allTrue

end World.Tells

/-! ## Tracing changes nothing -/

/-- The second world is the first one traced, and what is noted tells of it. -/
def World.Traces (before : List (Event σ)) (n : Nat) (shared : TagMap Registry) (w : World σ)
    (v : World (Traced σ)) : Prop :=
  ∃ events, v = w.traced events ∧ w.Tells before n shared events

/-- A host and the one that traces it. -/
def Likeness.tracing (before : List (Event σ)) (n : Nat) (shared : TagMap Registry) :
    Likeness σ (Traced σ) where
  worlds := World.Traces before n shared
  handler := Handler.traced
  handler?_eq := by
    rintro w _ ⟨events, rfl, -⟩ r tag
    exact w.handler?_withHandlers _ _ r tag
  record := by
    rintro w _ ⟨events, rfl, h⟩ level message
    exact ⟨events, rfl, h.of_eq rfl rfl⟩

section

variable {before : List (Event σ)} {n : Nat} {shared : TagMap Registry} {w : World σ}
  {v : World (Traced σ)} {render : Rendering σ} {render' : Rendering (Traced σ)}

/-- The steps of a handler lead to the same world traced. -/
theorem Action.alike_run_traced
    (hrender : (Likeness.tracing before n shared).Renders render render') (a : Action σ)
    (h : w.Traces before n shared v) :
    Alike (World.Traces before n shared) (a.run render w) (a.traced.run render' v) := by
  induction a generalizing w v with
  | done result =>
    cases result with
    | ok replacement => exact .ok h
    | error failure => exact .error h
  | getState next ih =>
    obtain ⟨events, rfl, h⟩ := h
    exact ih w.state ⟨events, rfl, h⟩
  | setState state next ih =>
    obtain ⟨events, rfl, h⟩ := h
    exact ih (w := { w with state := state }) ⟨events, rfl, h.of_eq rfl rfl⟩
  | register r tag handler next _ ih =>
    obtain ⟨events, rfl, h⟩ := h
    exact ih ⟨_, (w.withHandlers_register _ _ r tag handler).symm, h.register r tag handler⟩
  | unregister r tag next ih =>
    obtain ⟨events, rfl, h⟩ := h
    have hfound : ((w.traced events).unregister r tag).1 = (w.unregister r tag).1 :=
      w.isRegistered_withHandlers _ _ r tag
    have hworld := w.withHandlers_unregister Handler.traced
      ⟨w.state, events ++ [.unregister r tag (w.isRegistered r tag)]⟩ r tag
    rw [traced, run, run, hfound]
    exact ih _ ⟨_, hworld.symm, h.unregister r tag⟩
  | isRegistered r tag next ih =>
    obtain ⟨events, rfl, h⟩ := h
    have hfound : (w.traced events).isRegistered r tag = w.isRegistered r tag :=
      w.isRegistered_withHandlers _ _ r tag
    rw [traced, run, run, hfound]
    exact ih _ ⟨_, rfl, h.asked r tag⟩
  | setPolicy policy next ih =>
    obtain ⟨events, rfl, h⟩ := h
    exact ih (w := { w with policy := policy }) ⟨events, rfl, h.of_eq rfl rfl⟩
  | render r text next ih =>
    have hout := hrender r text h
    rw [traced, run, run]
    generalize render r text w = x at hout ⊢
    generalize render' r text v = y at hout ⊢
    cases hout with
    | ok h => exact ih _ h
    | error h => exact ih _ h
    | tooDeep => exact .tooDeep

theorem Likeness.runs_tracing
    (hrender : (Likeness.tracing before n shared).Renders render render') :
    (Likeness.tracing before n shared).Runs render render' :=
  fun handler invocation _ _ h => (handler invocation).alike_run_traced hrender h

end

namespace Renderer

variable (renderer : Renderer σ) (before : List (Event σ)) (n : Nat) (shared : TagMap Registry)

theorem analyzes_traced :
    (Likeness.tracing before n shared).Analyzes renderer renderer.traced where
  registry := rfl
  rules := by
    rintro w _ ⟨events, rfl, -⟩
    rfl
  document := by
    rintro w _ ⟨events, rfl, -⟩ text markup
    rfl
  worlds := by
    rintro w _ ⟨events, rfl, h⟩ text markup
    exact ⟨events, rfl, h.of_eq rfl rfl⟩

/-- Texts that handlers ask for are traced as well. -/
theorem renders_tracing (depth : Nat) : (Likeness.tracing before n shared).Renders
    (fun r => renderWithin depth (.standard r)) (fun r => renderWithin depth (.standard r)) := by
  induction depth with
  | zero => exact fun _ _ _ _ _ => .tooDeep
  | succ depth ih =>
    intro r text w v h
    exact ((standard r).analyzes_traced before n shared).alike_step (Likeness.runs_tracing ih) h

/-- **A traced rendering ends as the rendering does**, and what is noted tells of the handlers in
the world that it ends in. -/
theorem alike_renderWithin_traced (depth : Nat) (text : Text) {w : World σ} {v : World (Traced σ)}
    (h : w.Traces before n shared v) :
    Alike (World.Traces before n shared) (renderer.renderWithin depth text w)
      (renderer.traced.renderWithin depth text v) := by
  cases depth with
  | zero => exact .tooDeep
  | succ depth =>
    exact (renderer.analyzes_traced before n shared).alike_step
      (Likeness.runs_tracing (renders_tracing before n shared depth)) h

end Renderer

end Shortcode
