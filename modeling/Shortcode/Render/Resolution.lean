import Shortcode.World

/-!
# What stands in place of a tag

An escaped tag stands for its text with one bracket less at each end.  A tag with a handler stands
for the text that the handler gives.  Any other tag is left to the policy.  A close tag with nothing
to close never reaches a handler.
-/

namespace Shortcode

/-- The text of a tag and where it is to go. -/
structure Resolved where
  text : Text
  placement : Placement
  deriving DecidableEq

/-- The handlers and the policy that a text is rendered with. -/
structure Rules where
  registry : Registry
  policy : Policy

/-- Where an occurrence stands. -/
def Surroundings.of (o : Occurrence) (document : Document) : Surroundings :=
  match o.context with
  | .body =>
    ⟨(document.innermostAt o.span.start).bind (Node.get? document),
      (document.enclosingBlock o.span.start).bind (Node.get? document), .none⟩
  | .verbatim .. => .none
  | .attributeValue _ element name => ⟨.none, .none, some ⟨element, name⟩⟩

namespace Rules

variable {σ : Type}

/-- The handler that an occurrence is given to. -/
def handler? (rules : Rules) (o : Occurrence) (w : World σ) : Option (Handler σ) :=
  if o.form = .strayClose then none else w.handler? rules.registry o.name

/-- Whether anything but its own text can stand in place of an occurrence. -/
def isActionable (rules : Rules) (o : Occurrence) (w : World σ) : Bool :=
  o.escaped || rules.policy != .leave ||
    (o.form != .strayClose && w.isRegistered rules.registry o.name)

/-- The call of the handler of an occurrence. -/
def invocation (rules : Rules) (source : Text) (document : Document) (o : Occurrence) :
    Invocation :=
  ⟨o.name, o.arguments, o.contentText source, rules.registry, .of o document⟩

/-- What stands in place of an occurrence. -/
def resolve (render : Rendering σ) (rules : Rules) (source : Text) (document : Document)
    (o : Occurrence) (w : World σ) : Result σ RenderError Resolved :=
  if o.escaped then .ok ⟨o.unescaped source, .inline⟩ w
  else
    match rules.handler? o w with
    | none => .ok ⟨rules.policy.apply (o.text source) o.context.isBody, .inline⟩ w
    | some handler =>
      match (handler (rules.invocation source document o)).run render w with
      | .ok r w => .ok ⟨r.text, r.placement.getD (.ofArguments o.arguments)⟩ w
      | .error failure w => .error ⟨o.name, failure⟩ w
      | .tooDeep => .tooDeep

end Rules

end Shortcode
