import Shortcode.Arguments.Reader
import Shortcode.Tag.Basic

/-!
# Reading a bracket tag

At a `[` stands a tag iff the text goes on as `[name args]`, `[name args /]` or `[/name]`.  A second
`[` in front of the tag and a second `]` after it are noted; whether they make an escape is settled
when tags are paired.  A `[[` that does not go on as a tag is no tag.
-/

namespace Shortcode

open Byte

/-- Letters, digits and underscores; a name may consist of digits alone. -/
def Byte.isNameByte (b : UInt8) : Bool := isAlphanumeric b || b == underscore

namespace Bracket

/-! ## Algorithm -/

/-- Whether a name may end in front of this rest: at a separator, a `]` or a `/]`. -/
def nameEnds (rest : Text) : Bool :=
  match rest with
  | [] => false
  | b :: _ => isSeparator b || b == rightBracket || [slash, rightBracket].isPrefixOf rest

/-- A close tag `[/name]`; `start` is the offset of its `[` and the cursor follows the slash. -/
def readClosing (context : Context) (start : Nat) (c : Cursor) : Option (Bracket × Cursor) :=
  let name := c.takeWhile isNameByte
  let afterName := c.skipWhile isNameByte
  if name.isEmpty || !afterName.startsWith [rightBracket] then none
  else
    let after := afterName.advance 1
    some (⟨name, .closing, ⟨start, after.pos⟩, false, false, context⟩, after)

/-- An open tag; `start` is the offset of its `[` and the cursor follows it. -/
def readOpening (context : Context) (start : Nat) (c : Cursor) : Option (Bracket × Cursor) :=
  let name := c.takeWhile isNameByte
  let afterName := c.skipWhile isNameByte
  if name.isEmpty || !nameEnds afterName.rest then none
  else
    match Arguments.read .endOfTag afterName with
    | .error _ => none
    | .ok (arguments, stop) =>
      let selfClosing := stop.startsWith [slash, rightBracket]
      let after := stop.advance (if selfClosing then 2 else 1)
      some
        (⟨name, .opening arguments selfClosing, ⟨start, after.pos⟩, false, false, context⟩, after)

/-- The tag without doubled brackets whose `[` is at the cursor. -/
def readSingle? (context : Context) (c : Cursor) : Option (Bracket × Cursor) :=
  let inner := c.advance 1
  if inner.startsWith [slash] then readClosing context c.pos (inner.advance 1)
  else readOpening context c.pos inner

/-- The tag at a `[`, with the doubled brackets around it. -/
def read? (context : Context) (c : Cursor) : Option (Bracket × Cursor) :=
  let lead := c.peekAt? 1 == some leftBracket
  match readSingle? context (if lead then c.advance 1 else c) with
  | none => none
  | some (b, after) =>
    let trail := after.startsWith [rightBracket]
    some (⟨b.name, b.kind, b.span, lead, trail, b.context⟩,
      if trail then after.advance 1 else after)

/-! ## Lemmas -/

theorem length_readClosing_lt {context : Context} {start : Nat} {c c' : Cursor} {b : Bracket}
    (h : readClosing context start c = some (b, c')) : c'.rest.length < c.rest.length := by
  unfold readClosing at h
  simp only [Bool.or_eq_true] at h
  split at h
  · cases h
  · rename_i hn
    cases h
    refine Nat.lt_of_le_of_lt (Cursor.length_advance_le _ _) (Cursor.length_skipWhile_lt ?_)
    intro e
    exact hn (.inl (by simp [e]))

theorem length_readInto_le {stop : Terminator} {args args' : Arguments} {c c' : Cursor}
    (h : Arguments.readInto stop args c = .ok (args', c')) : c'.rest.length ≤ c.rest.length := by
  induction hn : c.rest.length using Nat.strongRecOn generalizing c args with
  | _ n ih =>
    subst hn
    rw [Arguments.readInto] at h
    simp only at h
    split at h
    · cases h
      exact Cursor.length_skipWhile_le _ _
    · split at h
      · cases h
      · rename_i after he
        have hlt := Nat.lt_of_lt_of_le (Arguments.length_entry_lt he)
          (Cursor.length_skipWhile_le isSeparator c)
        exact Nat.le_trans (ih _ hlt h rfl) (Nat.le_of_lt hlt)

theorem length_readOpening_lt {context : Context} {start : Nat} {c c' : Cursor} {b : Bracket}
    (h : readOpening context start c = some (b, c')) : c'.rest.length < c.rest.length := by
  unfold readOpening at h
  simp only [Bool.or_eq_true] at h
  split at h
  · cases h
  · rename_i hn
    have hlt : (c.skipWhile isNameByte).rest.length < c.rest.length := by
      refine Cursor.length_skipWhile_lt ?_
      intro e
      exact hn (.inl (by simp [e]))
    split at h
    · cases h
    · rename_i hr
      cases h
      refine Nat.lt_of_le_of_lt (Cursor.length_advance_le _ _) ?_
      exact Nat.lt_of_le_of_lt (length_readInto_le hr) hlt

theorem length_readSingle_lt {context : Context} {c c' : Cursor} {b : Bracket}
    (h : readSingle? context c = some (b, c')) : c'.rest.length < c.rest.length := by
  unfold readSingle? at h
  simp only at h
  split at h
  · exact Nat.lt_of_lt_of_le (length_readClosing_lt h)
      (Nat.le_trans (Cursor.length_advance_le _ _) (Cursor.length_advance_le _ _))
  · exact Nat.lt_of_lt_of_le (length_readOpening_lt h) (Cursor.length_advance_le _ _)

/-- A tag holds at least one byte. -/
theorem length_read_lt {context : Context} {c c' : Cursor} {b : Bracket}
    (h : read? context c = some (b, c')) : c'.rest.length < c.rest.length := by
  unfold read? at h
  simp only at h
  split at h
  · cases h
  · rename_i b' after hs
    have hlt : after.rest.length < c.rest.length := by
      refine Nat.lt_of_lt_of_le (length_readSingle_lt hs) ?_
      split
      · exact Cursor.length_advance_le _ _
      · exact Nat.le_refl _
    cases h
    split
    · exact Nat.lt_of_le_of_lt (Cursor.length_advance_le _ _) hlt
    · exact hlt

end Bracket

end Shortcode
