import Shortcode.Markup.Document
import Shortcode.Policy
import Shortcode.Tag.Basic

/-!
# Handlers

A handler turns one tag into text.  It is a program over a state of its host: what it does besides
giving a text is an `Action` for each step, to be carried out by whoever calls it.  A handler may
keep state, register and unregister tags, change the policy, and render text through a registry.
-/

namespace Shortcode

/-! ## Placement -/

/-- Where the text of a tag goes. -/
inductive Placement where
  /-- Where the tag stands. -/
  | inline
  /-- In front of the nearest block around the tag. -/
  | before
  /-- After the nearest block around the tag. -/
  | after
  /-- Between two halves of the block.  This is not done; the text stays where the tag stands. -/
  | split
  deriving DecidableEq

namespace Placement

def name : Placement → Text
  | .inline => Text.ofString "inline"
  | .before => Text.ofString "before"
  | .after => Text.ofString "after"
  | .split => Text.ofString "split"

/-- The placement with exactly this name. -/
def ofName? (t : Text) : Option Placement := [inline, before, after, split].find? (·.name == t)

/-- The name with a capital letter, as messages show it. -/
def title : Placement → Text
  | .inline => Text.ofString "Inline"
  | .before => Text.ofString "Before"
  | .after => Text.ofString "After"
  | .split => Text.ofString "Split"

/-- What a tag asks for with its `location` argument or, without one, its `class` argument. -/
def ofArguments (args : Arguments) : Placement :=
  let hint :=
    ((args.get? (Text.ofString "location")).or (args.get? (Text.ofString "class"))).getD []
  if hint == Text.ofString "left" || hint == Text.ofString "right" then .before
  else if hint == Text.ofString "center" || hint == Text.ofString "leftAlone" then .split
  else .inline

end Placement

/-! ## What a handler is given -/

/-- A handle on a set of handlers.  Handles with one number share their handlers; the number alone
tells two of them apart. -/
structure Registry where
  id : Nat
  name : Text
  deriving DecidableEq

/-- Whether two handles share their handlers. -/
def Registry.sameAs (a b : Registry) : Bool := a.id == b.id

/-- An attribute of an element, both named in lower case. -/
structure AttributePlace where
  element : Text
  name : Text
  deriving DecidableEq

/-- Where a tag stands: in ordinary text the element and the block around it, in an attribute value
the attribute, in a raw text body nothing. -/
structure Surroundings where
  node : Option Node
  block : Option Node
  attributePlace : Option AttributePlace
  deriving DecidableEq

def Surroundings.none : Surroundings := ⟨.none, .none, .none⟩

/-- One call of a handler. -/
structure Invocation where
  name : Text
  arguments : Arguments
  /-- The enclosed text; none for a tag without a close tag. -/
  content : Option Text
  /-- The registry that the text is rendered with. -/
  registry : Registry
  surroundings : Surroundings
  deriving DecidableEq

/-! ## What a handler gives back -/

/-- The text that takes the place of a tag. -/
structure Replacement where
  text : Text
  /-- Without a placement the arguments of the tag decide. -/
  placement : Option Placement
  deriving DecidableEq

/-- Why a handler gave no text. -/
inductive Failure where
  | message (text : Text)
  /-- The handler of a tag failed in text that this handler rendered. -/
  | rendering (tag : Text) (cause : Failure)
  deriving DecidableEq

/-- Why a text could not be rendered: the handler of a tag failed. -/
structure RenderError where
  tag : Text
  cause : Failure
  deriving DecidableEq

/-- The text of the error that the handler of `tag` failed. -/
def handlerFailed (tag : Text) : Text :=
  Text.ofString "handler for [" ++ tag ++ Text.ofString "] failed"

namespace Failure

/-- The texts of the failure and of what caused it, outermost first. -/
def chain : Failure → List Text
  | .message text => [text]
  | .rendering tag cause => handlerFailed tag :: cause.chain

end Failure

namespace RenderError

def message (e : RenderError) : Text := handlerFailed e.tag

/-- The failure of a handler that passes the error on. -/
def toFailure (e : RenderError) : Failure := .rendering e.tag e.cause

end RenderError

/-! ## Programs -/

/-- What a handler does: steps on its host, and at the end a text or a failure. -/
inductive Action (σ : Type) where
  | done (result : Except Failure Replacement)
  | getState (next : σ → Action σ)
  | setState (state : σ) (next : Action σ)
  | register (registry : Registry) (tag : Text) (handler : Invocation → Action σ) (next : Action σ)
  /-- The rest is told whether there was a handler. -/
  | unregister (registry : Registry) (tag : Text) (next : Bool → Action σ)
  | isRegistered (registry : Registry) (tag : Text) (next : Bool → Action σ)
  | setPolicy (policy : Policy) (next : Action σ)
  /-- Renders a text with the handlers of a registry. -/
  | render (registry : Registry) (text : Text) (next : Except RenderError Text → Action σ)

/-- What is called for a tag. -/
abbrev Handler (σ : Type) := Invocation → Action σ

namespace Action

variable {σ : Type}

/-- Ends with a text and a placement. -/
def give (text : Text) (placement : Option Placement) : Action σ := .done (.ok ⟨text, placement⟩)

def fail (failure : Failure) : Action σ := .done (.error failure)

/-- Renders a text and goes on with the result; an error becomes the failure of this handler. -/
def rendered (registry : Registry) (text : Text) (next : Text → Action σ) : Action σ :=
  .render registry text fun
    | .ok out => next out
    | .error e => fail e.toFailure

end Action

end Shortcode
