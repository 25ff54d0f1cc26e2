import Shortcode.Render.Renderer
import Shortcode.Text.Characters

/-!
# Templates

A template is text with placeholders, words in braces.  The placeholder `content` stands for the
rendered content of the tag and any other word for the argument of that name, or for nothing where
there is no such argument.  Filling is one pass from left to right: what is filled in is not read
again.  A brace that does not enclose a word stays.

The content is rendered once, before the template is filled, however often it is asked for.
-/

namespace Shortcode

open Byte

namespace Template

/-! ## Placeholders -/

/-- The word of the placeholder whose opening brace was read, and the text after the placeholder. -/
def placeholder? (t : Text) : Option (Text × Text) :=
  match t.splitWhile CharacterClass.isWord with
  | ([], _) => none
  | (word, b :: after) => if b = rightBrace then some (word, after) else none
  | (_, []) => none

/-! ## Lemmas -/

theorem length_placeholder_lt {t word after : Text} (h : placeholder? t = some (word, after)) :
    after.length < t.length := by
  have hle := t.length_splitWhile_le CharacterClass.isWord
  unfold placeholder? at h
  split at h
  · cases h
  · rename_i he
    rw [he] at hle
    split at h
    · cases h
      exact hle
    · cases h
  · cases h

/-! ## Filling -/

/-- The template with every placeholder replaced by the value of its word. -/
def fill (value : Text → Text) : Text → Text
  | [] => []
  | b :: rest =>
    if b = leftBrace then
      match h : placeholder? rest with
      | some (word, after) =>
        have := length_placeholder_lt h
        value word ++ fill value after
      | none => b :: fill value rest
    else b :: fill value rest
termination_by t => t.length
decreasing_by
  all_goals
    simp only [List.length_cons]
    omega

/-- What a word stands for. -/
def valueOf (content : Text) (arguments : Arguments) (word : Text) : Text :=
  if word = Text.ofString "content" then content else (arguments.get? word).getD []

/-- Fills a template for one call and goes on with the text. -/
def rendered {σ : Type} (template : Text) (invocation : Invocation) (next : Text → Action σ) :
    Action σ :=
  match invocation.content with
  | none => next (fill (valueOf [] invocation.arguments) template)
  | some content =>
    .rendered invocation.registry content fun out =>
      next (fill (valueOf out invocation.arguments) template)

/-- The handler that fills a template. -/
def handler {σ : Type} (template : Text) (placement : Option Placement) : Handler σ :=
  fun invocation => rendered template invocation fun text => .give text placement

end Template

end Shortcode
