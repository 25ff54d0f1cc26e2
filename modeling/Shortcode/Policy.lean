import Shortcode.Text.Quoted

/-!
# The policy for tags without a handler

A tag that is well formed but has no handler is removed, marked with a warning or left as it is.
Only whole tags are affected; a lone `[` always stays.
-/

namespace Shortcode

/-- What becomes of a tag without a handler. -/
inductive Policy where
  /-- The tag is removed. -/
  | strip
  /-- The tag is kept in a visible warning. -/
  | warn
  /-- The tag is kept. -/
  | leave
  deriving DecidableEq

namespace Policy

def name : Policy → Text
  | .strip => Text.ofString "strip"
  | .warn => Text.ofString "warn"
  | .leave => Text.ofString "leave"

/-- The policy with exactly this name. -/
def ofName? (t : Text) : Option Policy := [strip, warn, leave].find? (·.name == t)

/-- Why a text names no policy. -/
structure Unknown where
  text : Text
  deriving DecidableEq

def Unknown.message (u : Unknown) : Text :=
  Text.ofString "unknown error behavior " ++ u.text.quoted ++
    Text.ofString ", expected one of strip, warn, leave"

/-- The policy that a user names, whatever the case and the white space around it. -/
def ofText (t : Text) : Except Unknown Policy :=
  match ofName? (Text.lower t.trim) with
  | some p => .ok p
  | none => .error ⟨t⟩

/-- The mark-up of a visible warning around a tag. -/
def warning (source : Text) : Text :=
  Text.ofString "<strong class=\"warning\">" ++ source ++ Text.ofString "</strong>"

/-- What stands in place of a tag written as `source`.  Where no mark-up is allowed, in attribute
values and raw text bodies, a warning is no more than the tag itself. -/
def apply (p : Policy) (source : Text) (allowsMarkup : Bool) : Text :=
  match p with
  | .strip => []
  | .warn => if allowsMarkup then warning source else source
  | .leave => source

end Policy

end Shortcode
