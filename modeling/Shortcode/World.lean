import Shortcode.Handler
import Shortcode.TagMap

/-!
# The world that texts are rendered in

A `World` holds all that a rendering can change: the policy, the handlers of every registry, the
messages logged so far and the state of the host.  A handler's `Action` runs on a world.

A registry made by `newRegistry` belongs to whoever holds its handle; `sharedRegistry` gives one
registry for each name, made when the name is first asked for.
-/

namespace Shortcode

/-! ## Messages -/

inductive LogLevel where
  | debug
  | warn
  deriving DecidableEq

structure LogRecord where
  level : LogLevel
  message : Text
  deriving DecidableEq

/-! ## Worlds -/

/-- All that a rendering can change. -/
structure World (σ : Type) where
  policy : Policy
  /-- The handlers of registry `i`, for each `i`. -/
  tables : List (TagMap (Handler σ))
  /-- The shared registries by name. -/
  shared : TagMap Registry
  /-- In the order in which they were logged. -/
  log : List LogRecord
  state : σ

namespace World

variable {σ : Type}

/-- The world before anything is registered; tags without a handler are left alone. -/
def initial (state : σ) : World σ := ⟨.leave, [], .empty, [], state⟩

def record (w : World σ) (level : LogLevel) (message : Text) : World σ :=
  { w with log := w.log ++ [⟨level, message⟩] }

/-- The handlers of a registry. -/
def handlers (w : World σ) (r : Registry) : TagMap (Handler σ) := (w.tables[r.id]?).getD .empty

/-- The handler of a tag. -/
def handler? (w : World σ) (r : Registry) (tag : Text) : Option (Handler σ) :=
  (w.handlers r).get? tag

def isRegistered (w : World σ) (r : Registry) (tag : Text) : Bool := (w.handlers r).contains tag

/-- The tags of a registry in the order of their bytes. -/
def tags (w : World σ) (r : Registry) : List Text := (w.handlers r).names

def modifyHandlers (w : World σ) (r : Registry)
    (f : TagMap (Handler σ) → TagMap (Handler σ)) : World σ :=
  { w with tables := w.tables.modify r.id f }

/-- A registry of its own. -/
def newRegistry (w : World σ) (name : Text) : Registry × World σ :=
  (⟨w.tables.length, name⟩, { w with tables := w.tables ++ [.empty] })

/-- The registry that all who ask for this name share. -/
def sharedRegistry (w : World σ) (name : Text) : Registry × World σ :=
  match w.shared.get? name with
  | some r => (r, w)
  | none =>
    let (r, w) := w.newRegistry name
    (r, { w with shared := w.shared.insert name r })

/-- Makes `handler` the handler of `tag`, in place of any other. -/
def register (w : World σ) (r : Registry) (tag : Text) (handler : Handler σ) : World σ :=
  (w.record .debug (Text.ofString "registry " ++ r.name ++ Text.ofString ": register [" ++ tag ++
    Text.ofString "]")).modifyHandlers r (·.insert tag handler)

/-- Removes the handler of `tag`; also says whether there was one. -/
def unregister (w : World σ) (r : Registry) (tag : Text) : Bool × World σ :=
  (w.isRegistered r tag, w.modifyHandlers r (·.erase tag))

end World

/-! ## Running on a world -/

/-- How a computation on a world ends. -/
inductive Result (σ ε α : Type) where
  | ok (value : α) (world : World σ)
  | error (error : ε) (world : World σ)
  /-- Texts were rendered inside each other more deeply than was allowed for. -/
  | tooDeep

/-- How a text is rendered with the handlers of a registry. -/
abbrev Rendering (σ : Type) := Registry → Text → World σ → Result σ RenderError Text

/-- Carries out what a handler does; `render` renders the texts that it asks for. -/
def Action.run {σ : Type} (render : Rendering σ) : Action σ → World σ → Result σ Failure Replacement
  | .done (.ok replacement), w => .ok replacement w
  | .done (.error failure), w => .error failure w
  | .getState next, w => (next w.state).run render w
  | .setState state next, w => next.run render { w with state := state }
  | .register r tag handler next, w => next.run render (w.register r tag handler)
  | .unregister r tag next, w => (next (w.unregister r tag).1).run render (w.unregister r tag).2
  | .isRegistered r tag next, w => (next (w.isRegistered r tag)).run render w
  | .setPolicy policy next, w => next.run render { w with policy := policy }
  | .render r text next, w =>
    match render r text w with
    | .ok out w => (next (.ok out)).run render w
    | .error e w => (next (.error e)).run render w
    | .tooDeep => .tooDeep

end Shortcode
