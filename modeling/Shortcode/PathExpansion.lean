import Shortcode.Text.Characters

/-!
# Expanding paths

A path may start with a tilde for the home directory and may hold variables:

    ~   ~/rest   $name   ${name}   ${name:-default}   $$

A double dollar stands for one.  A default is for a variable that is not set: one that is empty
stands for nothing.  A variable that is not set and has no default fails the expansion.  A tilde
that a variable brings in is not expanded.
-/

namespace Shortcode

open Byte

/-- Variables by name. -/
structure Environment where
  bindings : List (Text × Text)

namespace Environment

/-- The value of a variable.  One that is no string counts as not set. -/
def get? (env : Environment) (name : Text) : Option ValidText :=
  (env.bindings.lookup name).bind ValidText.ofText?

/-- The home directory, unless it is not set or empty.  A home directory that only the database of
users knows is left out. -/
def home? (env : Environment) : Option ValidText :=
  (env.get? (Text.ofString "HOME")).filter (!·.1.isEmpty)

end Environment

namespace PathExpansion

/-! ## Variables -/

/-- Letters, digits and underscores, of any script. -/
def isNameCharacter (c : Char) : Bool := CharacterClass.isAlphanumeric c || c == '_'

/-- The name in front of a text, and the text after it. -/
def takeName (t : Text) : Text × Text := t.splitWhile isNameCharacter

/-- What stands between a name and its default. -/
def defaultMark : Text := Text.ofString ":-"

/-- The name and the default that are written between braces.  Without a name in front of the mark
there is no default. -/
def nameAndDefault (body : Text) : Text × Option Text :=
  let name := body.takeUntil (defaultMark.isPrefixOf ·)
  let marked := body.dropUntil (defaultMark.isPrefixOf ·)
  if name.isEmpty || marked.isEmpty then (body, none)
  else (name, some (marked.drop defaultMark.length))

/-- What a variable in braces stands for; `body` is the text between the braces. -/
def braced? (env : Environment) (body : Text) : Option Text :=
  (env.get? (nameAndDefault body).1).map (·.1) <|> (nameAndDefault body).2

/-- The text with its variables replaced; none if one has no value. -/
def expandVariables? (env : Environment) : Text → Option Text
  | [] => some []
  | b :: rest =>
    if b = dollar then
      match rest with
      | [] => some [dollar]
      | c :: after =>
        if c = leftBrace then
          match hr : after.dropWhile (· != rightBrace) with
          | [] => (expandVariables? env after).map ([dollar, leftBrace] ++ ·)
          | _ :: behind =>
            have : behind.length < after.length := by
              have := Text.length_dropWhile_le (· != rightBrace) after
              rw [hr] at this
              exact this
            match braced? env (after.takeWhile (· != rightBrace)) with
            | none => none
            | some value => (expandVariables? env behind).map (value ++ ·)
        else if c = dollar then (expandVariables? env after).map (dollar :: ·)
        else
          have := Text.length_splitWhile_le isNameCharacter (c :: after)
          if (takeName (c :: after)).1.isEmpty then
            (expandVariables? env (c :: after)).map (dollar :: ·)
          else
            match env.get? (takeName (c :: after)).1 with
            | none => none
            | some value => (expandVariables? env (takeName (c :: after)).2).map (value.1 ++ ·)
    else (expandVariables? env rest).map (b :: ·)
termination_by t => t.length
decreasing_by
  all_goals
    simp only [List.length_cons, takeName] at *
    omega

/-! ## The home directory -/

/-- The path with a leading tilde, alone or before a slash, replaced by the home directory. -/
def tilde (env : Environment) (t : Text) : Text :=
  match t, env.home? with
  | b :: rest, some home =>
    if b = Byte.tilde && (rest.isEmpty || rest.head? == some slash) then home.1 ++ rest else t
  | _, _ => t

/-- The path with variables and tilde expanded; none if a variable has no value. -/
def expand? (env : Environment) (path : Text) : Option Text :=
  (expandVariables? env path).map fun t => if path.head? == some Byte.tilde then tilde env t else t

/-- The expanded path, or the path as it is where the expansion fails.  Paths are expanded when they
are read, and then they are strings. -/
def expand (env : Environment) (path : Text) : Text := (expand? env path).getD path

/-! ## Names in a path -/

/-- The name that may follow a dollar in front of this text. -/
def nameAt : Text → Text
  | [] => []
  | b :: rest =>
    if b = leftBrace then (nameAndDefault (rest.takeWhile (· != rightBrace))).1
    else (takeName (b :: rest)).1

/-- Every name whose value the expansion of a path may ask for. -/
def mentioned : Text → List Text
  | [] => []
  | b :: rest => if b = dollar then nameAt rest :: mentioned rest else mentioned rest

end PathExpansion

end Shortcode
