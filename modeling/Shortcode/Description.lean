import Shortcode.World

/-!
# Descriptions of registries and calls

One-line descriptions for logs and tests: a name, and in braces the fields with their values.  Texts
are shown quoted.
-/

namespace Shortcode

namespace Description

/-- The items with a comma and a space between them. -/
def commaSeparated (items : List Text) : Text := (Text.ofString ", ").intercalate items

def list (items : List Text) : Text :=
  Text.ofString "[" ++ commaSeparated items ++ Text.ofString "]"

def tuple (items : List Text) : Text :=
  Text.ofString "(" ++ commaSeparated items ++ Text.ofString ")"

def option : Option Text → Text
  | none => Text.ofString "None"
  | some t => Text.ofString "Some(" ++ t ++ Text.ofString ")"

/-- A name and its fields. -/
def ofFields (name : String) (fields : List (String × Text)) : Text :=
  Text.ofString name ++ Text.ofString " \x7b " ++
    commaSeparated (fields.map fun f => Text.ofString f.1 ++ Text.ofString ": " ++ f.2) ++
    Text.ofString " \x7d"

end Description

open Description

/-- A registry with its tags in order. -/
def World.describe {σ : Type} (w : World σ) (r : Registry) : Text :=
  ofFields "Registry" [("name", r.name.quoted), ("tags", list ((w.tags r).map Text.quoted))]

def Arguments.describe (args : Arguments) : Text :=
  ofFields "Arguments"
    [("entries", list (args.entries.map fun e => tuple [e.1.quoted, e.2.quoted]))]

/-- A call made outside any document; its surroundings are shown as empty. -/
def Invocation.describe (i : Invocation) : Text :=
  ofFields "Invocation"
    [("name", i.name.quoted), ("arguments", i.arguments.describe),
      ("content", option (i.content.map Text.quoted)), ("registry", i.registry.name.quoted),
      ("extra", ofFields "Extra"
        [("node", option none), ("block", option none), ("attribute", option none)])]

end Shortcode
