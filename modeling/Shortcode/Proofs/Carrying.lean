import Shortcode.Proofs.SideBySide

/-!
# Hosts that carry others

A host carries another one if its state holds the state of the other and if it runs the handlers of
the other, with something of its own where a handler is called and where one ends.  Handlers cannot
see what the carrier adds, and whatever they do, also registering other handlers, is carried.  So a
computation ends as the one does that carries it, as long as what the carrier adds leaves the state
alone that it holds.

    (c.likeness P).Renders render render' →
      Alike (c.Carries Q) (a.run render w) ((a.carried c).run render' v)        (alike_run_carried)
-/

namespace Shortcode

open Result (Alike)

variable {σ τ : Type}

/-! ## Maps with other values -/

namespace TagMap

variable {α β : Type}

theorem get?_mapValues (m : TagMap α) (f : Text → α → β) (name : Text) :
    (m.mapValues f).get? name = (m.get? name).map (f name) := by
  show (m.entries.map _).lookup name = _
  rw [get?]
  induction m.entries with
  | nil => rfl
  | cons e rest ih =>
    obtain ⟨k, v⟩ := e
    rw [List.map_cons, List.lookup_cons, List.lookup_cons, ih]
    by_cases hk : name = k
    · rw [hk, beq_self_eq_true]
      rfl
    · rw [beq_false_of_ne hk]

theorem map_putEntry (f : Text → α → β) (name : Text) (value : α) (es : List (Text × α)) :
    (putEntry name value es).map (fun e => (e.1, f e.1 e.2)) =
      putEntry name (f name value) (es.map fun e => (e.1, f e.1 e.2)) := by
  induction es with
  | nil => rfl
  | cons e rest ih =>
    rw [putEntry, List.map_cons, putEntry]
    split
    · rfl
    · split
      · rw [List.map_cons, ih]
      · rfl

theorem mapValues_insert (m : TagMap α) (f : Text → α → β) (name : Text) (value : α) :
    (m.insert name value).mapValues f = (m.mapValues f).insert name (f name value) := by
  rw [TagMap.mk.injEq]
  exact map_putEntry f name value m.entries

theorem mapValues_erase (m : TagMap α) (f : Text → α → β) (name : Text) :
    (m.erase name).mapValues f = (m.mapValues f).erase name := by
  rw [TagMap.mk.injEq]
  show (m.entries.filter _).map _ = (m.entries.map _).filter _
  rw [List.filter_map]
  rfl

end TagMap

/-! ## Worlds with other handlers -/

namespace World

/-- The world of a host that is in state `s` and has `f handler` for each handler. -/
def withHandlers (w : World σ) (f : Handler σ → Handler τ) (s : τ) : World τ where
  policy := w.policy
  tables := w.tables.map (·.mapValues fun _ handler => f handler)
  shared := w.shared
  log := w.log
  state := s

variable (w : World σ) (f : Handler σ → Handler τ) (s : τ)

theorem handlers_withHandlers (r : Registry) :
    (w.withHandlers f s).handlers r = (w.handlers r).mapValues fun _ handler => f handler := by
  show ((w.tables.map _)[r.id]?).getD TagMap.empty = _
  rw [List.getElem?_map, handlers]
  cases w.tables[r.id]? <;> rfl

theorem handler?_withHandlers (r : Registry) (tag : Text) :
    (w.withHandlers f s).handler? r tag = (w.handler? r tag).map f := by
  rw [handler?, handlers_withHandlers, TagMap.get?_mapValues]
  rfl

theorem isRegistered_withHandlers (r : Registry) (tag : Text) :
    (w.withHandlers f s).isRegistered r tag = w.isRegistered r tag := by
  show ((w.withHandlers f s).handler? r tag).isSome = (w.handler? r tag).isSome
  rw [handler?_withHandlers, Option.isSome_map]

theorem withHandlers_modifyHandlers (r : Registry)
    {g : TagMap (Handler σ) → TagMap (Handler σ)} {g' : TagMap (Handler τ) → TagMap (Handler τ)}
    (hg : ∀ m, (g m).mapValues (fun _ handler => f handler) =
      g' (m.mapValues fun _ handler => f handler)) :
    (w.modifyHandlers r g).withHandlers f s = (w.withHandlers f s).modifyHandlers r g' := by
  have htables : (w.tables.modify r.id g).map (·.mapValues fun _ handler => f handler) =
      (w.tables.map (·.mapValues fun _ handler => f handler)).modify r.id g' := by
    refine List.ext_getElem? fun i => ?_
    rw [List.getElem?_map, List.getElem?_modify, List.getElem?_modify, List.getElem?_map]
    cases w.tables[i]? with
    | none => rfl
    | some m => by_cases hi : r.id = i <;> simp [hi, hg]
  exact congrArg (World.mk w.policy · w.shared w.log s) htables

theorem withHandlers_register (r : Registry) (tag : Text) (handler : Handler σ) :
    (w.register r tag handler).withHandlers f s =
      (w.withHandlers f s).register r tag (f handler) :=
  withHandlers_modifyHandlers _ f s r fun m => m.mapValues_insert _ tag handler

theorem withHandlers_unregister (r : Registry) (tag : Text) :
    (w.unregister r tag).2.withHandlers f s = ((w.withHandlers f s).unregister r tag).2 :=
  withHandlers_modifyHandlers w f s r fun m => m.mapValues_erase _ tag

end World

/-! ## Carriers -/

/-- How a host with states `τ` carries one with states `σ`. -/
structure Carrier (σ τ : Type) where
  /-- The state of the carried host. -/
  get : τ → σ
  set : σ → τ → τ
  get_set : ∀ state s, get (set state s) = state
  set_get : ∀ s, set (get s) s = s
  /-- What the carrier does when a handler is called, and then the handler. -/
  enter : Invocation → Action τ → Action τ
  /-- What the carrier does when a handler ends. -/
  leave : Except Failure Replacement → Action τ

variable (c : Carrier σ τ)

/-- The same steps on the carrier. -/
def Action.carried : Action σ → Action τ
  | .done result => c.leave result
  | .getState next => .getState fun s => (next (c.get s)).carried
  | .setState state next => .getState fun s => .setState (c.set state s) next.carried
  | .register r tag handler next =>
    .register r tag (fun invocation => c.enter invocation (handler invocation).carried) next.carried
  | .unregister r tag next => .unregister r tag fun found => (next found).carried
  | .isRegistered r tag next => .isRegistered r tag fun found => (next found).carried
  | .setPolicy policy next => .setPolicy policy next.carried
  | .render r text next => .render r text fun out => (next out).carried

def Handler.carried (handler : Handler σ) : Handler τ := fun invocation =>
  c.enter invocation ((handler invocation).carried c)

def Analyzer.carried (analyzer : Analyzer σ) : Analyzer τ := fun source markup s =>
  ((analyzer source markup (c.get s)).1, c.set (analyzer source markup (c.get s)).2 s)

def Renderer.carried (renderer : Renderer σ) : Renderer τ :=
  ⟨renderer.registry, renderer.analyzer.carried c, renderer.policy⟩

namespace World

/-- The world on the carrier, which is in state `s`. -/
def carried (w : World σ) (s : τ) : World τ where
  policy := w.policy
  tables := w.tables.map (·.mapValues fun _ handler => handler.carried c)
  shared := w.shared
  log := w.log
  state := s

variable (w : World σ) (s : τ)

theorem handler?_carried (r : Registry) (tag : Text) :
    (w.carried c s).handler? r tag = (w.handler? r tag).map (Handler.carried c) :=
  w.handler?_withHandlers _ s r tag

theorem isRegistered_carried (r : Registry) (tag : Text) :
    (w.carried c s).isRegistered r tag = w.isRegistered r tag :=
  w.isRegistered_withHandlers _ s r tag

theorem carried_register (r : Registry) (tag : Text) (handler : Handler σ) :
    (w.register r tag handler).carried c s =
      (w.carried c s).register r tag (handler.carried c) :=
  w.withHandlers_register _ s r tag handler

theorem carried_unregister (r : Registry) (tag : Text) :
    (w.unregister r tag).2.carried c s = ((w.carried c s).unregister r tag).2 :=
  w.withHandlers_unregister _ s r tag

end World

/-! ## Carrying changes nothing -/

namespace Carrier

variable (P Q : τ → Prop)

/-- The second world is the first one on the carrier, in a state that satisfies `P`. -/
def Carries (w : World σ) (v : World τ) : Prop :=
  ∃ s, P s ∧ c.get s = w.state ∧ v = w.carried c s

/-- A host and its carrier. -/
def likeness : Likeness σ τ where
  worlds := c.Carries P
  handler := Handler.carried c
  handler?_eq := by
    rintro w _ ⟨s, -, -, rfl⟩ r tag
    exact w.handler?_carried c s r tag
  record := by
    rintro w _ ⟨s, hs, hget, rfl⟩ level message
    exact ⟨s, hs, hget, rfl⟩

end Carrier

variable {c}

section

variable {P Q : τ → Prop} {render : Rendering σ} {render' : Rendering τ}
  (hset : ∀ state s, P s → P (c.set state s))

include hset

/-- The steps of a handler lead to the same world carried, where `Q` says what is left behind at the
end of the handler. -/
theorem Action.alike_run_carried (hrender : (c.likeness P).Renders render render')
    (hleave : ∀ result {w v}, c.Carries P w v → Alike (c.Carries Q)
      ((Action.done result).run render w) ((c.leave result).run render' v))
    (a : Action σ) {w : World σ} {v : World τ} (h : c.Carries P w v) :
    Alike (c.Carries Q) (a.run render w) ((a.carried c).run render' v) := by
  induction a generalizing w v with
  | done result => exact hleave result h
  | getState next ih =>
    obtain ⟨s, hs, hget, rfl⟩ := h
    rw [carried, run, run, ← hget]
    exact ih _ ⟨s, hs, hget, rfl⟩
  | setState state next ih =>
    obtain ⟨s, hs, hget, rfl⟩ := h
    exact ih (w := { w with state := state }) ⟨_, hset state s hs, c.get_set state s, rfl⟩
  | register r tag handler next _ ih =>
    obtain ⟨s, hs, hget, rfl⟩ := h
    exact ih ⟨s, hs, hget, (w.carried_register c s r tag handler).symm⟩
  | unregister r tag next ih =>
    obtain ⟨s, hs, hget, rfl⟩ := h
    show Alike _ _ (((next ((w.carried c s).isRegistered r tag)).carried c).run render'
      ((w.carried c s).unregister r tag).2)
    rw [w.isRegistered_carried, ← w.carried_unregister]
    exact ih _ ⟨s, hs, hget, rfl⟩
  | isRegistered r tag next ih =>
    obtain ⟨s, hs, hget, rfl⟩ := h
    rw [carried, run, run, w.isRegistered_carried]
    exact ih _ ⟨s, hs, hget, rfl⟩
  | setPolicy policy next ih =>
    obtain ⟨s, hs, hget, rfl⟩ := h
    exact ih (w := { w with policy := policy }) ⟨s, hs, hget, rfl⟩
  | render r text next ih =>
    have hout := hrender r text h
    rw [carried, run, run]
    generalize render r text w = x at hout ⊢
    generalize render' r text v = y at hout ⊢
    cases hout with
    | ok h => exact ih _ h
    | error h => exact ih _ h
    | tooDeep => exact .tooDeep

end

end Shortcode
