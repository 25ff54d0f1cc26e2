import Shortcode.Tag.Basic

/-!
# Pairing open and close tags

An open tag takes the nearest close tag of its name and context that follows it, and the text
between the two is its content; the tags in it are left to whoever handles the content.  Whether a
name takes content is asked of `pairs` after the close tag is chosen.

Doubled brackets count only where they balance.  A tag doubled on both sides, or a pair whose open
tag is doubled on the left and whose close tag is doubled on the right, is an escape; it takes the
doubled brackets in.  A pair that is an escape encloses its content whatever `pairs` says.
-/

namespace Shortcode

namespace Occurrence

/-! ## Algorithm -/

/-- Takes in the doubled brackets of an escape. -/
def widen (span : Span) (escaped : Bool) : Span :=
  if escaped then ⟨span.start - 1, span.stop + 1⟩ else span

/-- A tag without content. -/
def alone (b : Bracket) (arguments : Arguments) (form : Form) : Occurrence :=
  ⟨b.name, arguments, none, form, widen b.span b.isEscape, b.isEscape, b.context⟩

/-- An open tag, its close tag and what stands between them. -/
def between (opener close : Bracket) (arguments : Arguments) : Occurrence :=
  let escaped := opener.lead && close.trail
  ⟨opener.name, arguments, some ⟨opener.span.stop, close.span.start⟩, .enclosing,
    widen ⟨opener.span.start, close.span.stop⟩ escaped, escaped, opener.context⟩

/-- The first tag that closes `opener`, and the tags after it. -/
def findClose? (opener : Bracket) : List Bracket → Option (Bracket × List Bracket)
  | [] => none
  | b :: rest => if b.closes opener then some (b, rest) else findClose? opener rest

theorem length_findClose_lt {opener close : Bracket} {bs after : List Bracket}
    (h : findClose? opener bs = some (close, after)) : after.length < bs.length := by
  induction bs with
  | nil => cases h
  | cons b rest ih =>
    rw [findClose?] at h
    split at h
    · cases h
      exact Nat.lt_succ_self _
    · exact Nat.lt_succ_of_lt (ih h)

/-- The occurrences that the bracket tags of a document make. -/
def ofBrackets (pairs : Text → Bool) : List Bracket → List Occurrence
  | [] => []
  | b :: rest =>
    match b.kind with
    | .closing => alone b .empty .strayClose :: ofBrackets pairs rest
    | .opening arguments selfClosing =>
      if selfClosing then alone b arguments .selfClosing :: ofBrackets pairs rest
      else if b.isEscape then alone b arguments .opening :: ofBrackets pairs rest
      else
        match h : findClose? b rest with
        | none => alone b arguments .opening :: ofBrackets pairs rest
        | some (close, after) =>
          if (b.lead && close.trail) || pairs b.name then
            have : after.length < rest.length + 1 := Nat.lt_succ_of_lt (length_findClose_lt h)
            between b close arguments :: ofBrackets pairs after
          else alone b arguments .opening :: ofBrackets pairs rest
termination_by bs => bs.length

end Occurrence

end Shortcode
