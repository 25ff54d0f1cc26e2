import Shortcode.Proofs.TokenTwins

/-!
# Readers further on

Every reader sees the text at its cursor, not the offset of the cursor.  So with the same text at a
cursor that lies `n` bytes further on, it reads the same, each offset `n` bytes further on.  That
holds of errors too.

    Bracket.read? context (c.shifted n) =
      (Bracket.read? context c).map (Prod.map (·.shifted n) (·.shifted n))   (Bracket.read?_shifted)
-/

namespace Shortcode

open Byte

/-! ## Cursors -/

/-- The span `n` bytes further on. -/
def Span.shifted (n : Nat) (s : Span) : Span := ⟨s.start + n, s.stop + n⟩

namespace Span

@[simp] theorem shifted_start (n : Nat) (s : Span) : (s.shifted n).start = s.start + n := rfl

@[simp] theorem shifted_stop (n : Nat) (s : Span) : (s.shifted n).stop = s.stop + n := rfl

@[simp] theorem length_shifted (n : Nat) (s : Span) : (s.shifted n).length = s.length :=
  Nat.add_sub_add_right ..

end Span

namespace Cursor

/-- The same text at an offset `n` bytes further on. -/
def shifted (n : Nat) (c : Cursor) : Cursor := ⟨c.pos + n, c.rest⟩

variable (n : Nat) (c d : Cursor)

@[simp] theorem shifted_pos : (c.shifted n).pos = c.pos + n := rfl

@[simp] theorem shifted_rest : (c.shifted n).rest = c.rest := rfl

@[simp] theorem atEnd_shifted : (c.shifted n).atEnd = c.atEnd := rfl

@[simp] theorem peek?_shifted : (c.shifted n).peek? = c.peek? := rfl

@[simp] theorem peekAt?_shifted (k : Nat) : (c.shifted n).peekAt? k = c.peekAt? k := rfl

@[simp] theorem startsWith_shifted (pattern : Text) :
    (c.shifted n).startsWith pattern = c.startsWith pattern := rfl

@[simp] theorem takeWhile_shifted (p : UInt8 → Bool) :
    (c.shifted n).takeWhile p = c.takeWhile p := rfl

@[simp] theorem takeUntil_shifted (stop : Text → Bool) :
    (c.shifted n).takeUntil stop = c.takeUntil stop := rfl

@[simp] theorem spanTo_shifted : (c.shifted n).spanTo (d.shifted n) = (c.spanTo d).shifted n := rfl

@[simp] theorem advance_shifted (k : Nat) : (c.shifted n).advance k = (c.advance k).shifted n :=
  congrArg (Cursor.mk · _) (Nat.add_right_comm ..)

@[simp] theorem skipWhile_shifted (p : UInt8 → Bool) :
    (c.shifted n).skipWhile p = (c.skipWhile p).shifted n :=
  congrArg (Cursor.mk · _) (Nat.add_right_comm ..)

@[simp] theorem skipUntil_shifted (stop : Text → Bool) :
    (c.shifted n).skipUntil stop = (c.skipUntil stop).shifted n :=
  congrArg (Cursor.mk · _) (Nat.add_right_comm ..)

@[simp] theorem slice_shifted (s : Span) : (c.shifted n).slice (s.shifted n) = c.slice s := by
  rw [slice, slice, Span.length_shifted, Span.shifted_start, shifted_pos, shifted_rest,
    Nat.add_sub_add_right]

end Cursor

/-! ## Arguments -/

/-- The error at an offset `n` bytes further on. -/
def ArgumentError.shifted (n : Nat) : ArgumentError → ArgumentError
  | .unterminatedQuote quote offset => .unterminatedQuote quote (offset + n)
  | .unexpectedCharacter byte offset => .unexpectedCharacter byte (offset + n)
  | .unexpectedEnd offset => .unexpectedEnd (offset + n)

namespace Arguments

/-- What is read `n` bytes further on. -/
def shifted {α : Type} (n : Nat) :
    Except ArgumentError (α × Cursor) → Except ArgumentError (α × Cursor)
  | .error e => .error (e.shifted n)
  | .ok (a, c) => .ok (a, c.shifted n)

variable (n : Nat) (stop : Terminator) (c : Cursor)

theorem quotedValue_shifted (quote : UInt8) (offset : Nat) :
    quotedValue quote (offset + n) (c.shifted n) = shifted n (quotedValue quote offset c) := by
  unfold quotedValue
  simp only [Cursor.skipWhile_shifted, Cursor.atEnd_shifted, Cursor.takeWhile_shifted,
    Cursor.advance_shifted]
  split <;> rfl

theorem value_shifted : value stop (c.shifted n) = shifted n (value stop c) := by
  unfold value
  rw [Cursor.peek?_shifted]
  cases c.peek? with
  | none => rfl
  | some b =>
    simp only [Cursor.shifted_pos, Cursor.advance_shifted, quotedValue_shifted,
      Cursor.takeUntil_shifted, Cursor.skipUntil_shifted]
    split <;> rfl

theorem entry_shifted : entry stop (c.shifted n) = shifted n (entry stop c) := by
  unfold entry
  rw [Cursor.peek?_shifted]
  cases c.peek? with
  | none => rfl
  | some b =>
    simp only [Cursor.takeWhile_shifted, Cursor.skipWhile_shifted, Cursor.peek?_shifted,
      Cursor.advance_shifted, value_shifted]
    split
    · rfl
    · split
      · cases value stop
          ((((c.skipWhile isKeyByte).skipWhile isSpace).advance 1).skipWhile isSpace) <;> rfl
      · rfl

/-- How a list that is not over goes on. -/
theorem readInto_of_entry {stop : Terminator} {c : Cursor} (args : Arguments)
    (h : ¬ stop.reached (c.skipWhile isSeparator).rest = true) :
    readInto stop args c = match entry stop (c.skipWhile isSeparator) with
      | .error e => .error e
      | .ok ((key, value), after) => readInto stop (args.insert key value) after := by
  rw [readInto]
  simp only
  rw [if_neg h]
  split
  · rename_i he
    rw [he]
  · rename_i he
    rw [he]

theorem readInto_shifted (args : Arguments) :
    readInto stop args (c.shifted n) = shifted n (readInto stop args c) := by
  induction hlen : c.rest.length using Nat.strongRecOn generalizing c args with
  | _ len ih =>
    subst hlen
    by_cases hreached : stop.reached (c.skipWhile isSeparator).rest = true
    · have hreached' : stop.reached ((c.shifted n).skipWhile isSeparator).rest = true := hreached
      rw [readInto, readInto]
      simp only
      rw [if_pos hreached, if_pos hreached', Cursor.skipWhile_shifted]
      rfl
    · rw [readInto_of_entry args hreached, readInto_of_entry (c := c.shifted n) args hreached,
        Cursor.skipWhile_shifted, entry_shifted]
      cases he : entry stop (c.skipWhile isSeparator) with
      | error e => rfl
      | ok p =>
        obtain ⟨⟨key, value⟩, after⟩ := p
        have hlt := Nat.lt_of_lt_of_le (length_entry_lt he)
          (Cursor.length_skipWhile_le isSeparator c)
        exact ih _ hlt after _ rfl

theorem read_shifted : read stop (c.shifted n) = shifted n (read stop c) :=
  readInto_shifted n stop c .empty

end Arguments

/-! ## Tags -/

namespace Bracket

/-- The tag `n` bytes further on. -/
def shifted (n : Nat) (b : Bracket) : Bracket := { b with span := b.span.shifted n }

variable (n : Nat) (context : Context) (c : Cursor)

theorem readClosing_shifted (start : Nat) : readClosing context (start + n) (c.shifted n) =
    (readClosing context start c).map (Prod.map (·.shifted n) (·.shifted n)) := by
  unfold readClosing
  simp only [Cursor.takeWhile_shifted, Cursor.skipWhile_shifted, Cursor.startsWith_shifted,
    Cursor.advance_shifted]
  split <;> rfl

theorem readOpening_shifted (start : Nat) : readOpening context (start + n) (c.shifted n) =
    (readOpening context start c).map (Prod.map (·.shifted n) (·.shifted n)) := by
  unfold readOpening
  simp only [Cursor.takeWhile_shifted, Cursor.skipWhile_shifted, Cursor.shifted_rest,
    Arguments.read_shifted]
  split
  · rfl
  · cases Arguments.read .endOfTag (c.skipWhile isNameByte) with
    | error e => rfl
    | ok p =>
      simp only [Arguments.shifted, Cursor.startsWith_shifted, Cursor.advance_shifted]
      rfl

theorem readSingle?_shifted : readSingle? context (c.shifted n) =
    (readSingle? context c).map (Prod.map (·.shifted n) (·.shifted n)) := by
  unfold readSingle?
  simp only [Cursor.advance_shifted, Cursor.startsWith_shifted, Cursor.shifted_pos,
    readClosing_shifted, readOpening_shifted]
  split <;> rfl

/-- **A tag further on** is the same tag, `n` bytes further on. -/
theorem read?_shifted : read? context (c.shifted n) =
    (read? context c).map (Prod.map (·.shifted n) (·.shifted n)) := by
  have hcursor : ∀ (twice : Bool) (c : Cursor),
      (if twice = true then (c.shifted n).advance 1 else c.shifted n) =
        (if twice = true then c.advance 1 else c).shifted n := fun twice c => by
    cases twice
    · rfl
    · exact Cursor.advance_shifted n c 1
  unfold read?
  dsimp only
  rw [Cursor.peekAt?_shifted]
  generalize (c.peekAt? 1 == some leftBracket) = lead
  rw [hcursor, readSingle?_shifted]
  cases readSingle? context (if lead = true then c.advance 1 else c) with
  | none => rfl
  | some p =>
    obtain ⟨b, after⟩ := p
    exact congrArg (fun e => some (Bracket.mk b.name b.kind (b.span.shifted n) lead
      (after.startsWith [rightBracket]) b.context, e)) (hcursor _ after)

end Bracket

/-! ## Attributes -/

namespace Attribute

/-- The attribute `n` bytes further on. -/
def shifted (n : Nat) (a : Attribute) : Attribute := { a with value := a.value.map (·.shifted n) }

variable (n : Nat) (c : Cursor)

theorem readValue?_shifted : readValue? (c.shifted n) =
    (readValue? c).map (Prod.map (·.shifted n) (·.shifted n)) := by
  unfold readValue?
  rw [Cursor.peek?_shifted]
  cases c.peek? with
  | none => rfl
  | some b =>
    simp only [Cursor.advance_shifted, Cursor.skipWhile_shifted, Cursor.atEnd_shifted,
      Cursor.spanTo_shifted]
    split
    · split <;> rfl
    · rfl

theorem read?_shifted : read? (c.shifted n) =
    (read? c).map (Prod.map (·.shifted n) (·.shifted n)) := by
  unfold read?
  simp only [Cursor.advance_shifted, Cursor.skipWhile_shifted, Cursor.spanTo_shifted,
    Cursor.slice_shifted, Cursor.peek?_shifted, readValue?_shifted]
  split
  · cases readValue? ((((c.advance 1).skipWhile isAttributeNameByte).skipWhile
      isSpace).advance 1 |>.skipWhile isSpace) <;> rfl
  · rfl

/-- What is read of a start tag, `n` bytes further on. -/
def shiftedAll (n : Nat) (found : List Attribute × Bool × Cursor) :
    List Attribute × Bool × Cursor :=
  (found.1.map (·.shifted n), found.2.1, found.2.2.shifted n)

theorem readAll?_shifted : readAll? (c.shifted n) = (readAll? c).map (shiftedAll n) := by
  induction hlen : c.rest.length using Nat.strongRecOn generalizing c with
  | _ len ih =>
    subst hlen
    have hle := Cursor.length_skipWhile_le isSpace c
    have hrest' : ((c.shifted n).skipWhile isSpace).rest = (c.skipWhile isSpace).rest := rfl
    cases hrest : (c.skipWhile isSpace).rest with
    | nil => rw [readAll?_of_nil hrest, readAll?_of_nil (hrest'.trans hrest), Option.map_none]
    | cons b rest =>
      have hne : (c.skipWhile isSpace).rest ≠ [] := by simp [hrest]
      have hnext := Cursor.length_advance_lt (by decide : 0 < 1) hne
      rw [readAll?_of_rest hrest, readAll?_of_rest (hrest'.trans hrest)]
      simp only [Cursor.skipWhile_shifted, Cursor.advance_shifted, read?_shifted]
      split
      · rfl
      · split
        · split
          · rfl
          · exact ih _ (Nat.lt_of_lt_of_le hnext hle) _ rfl
        · cases ha : read? (c.skipWhile isSpace) with
          | none => rfl
          | some p =>
            obtain ⟨a, after⟩ := p
            have hafter := ih _ (Nat.lt_of_lt_of_le (length_read_lt hne ha) hle) after rfl
            simp only [Option.map_some, Prod.map_apply, Option.bind_some, hafter]
            cases readAll? after <;> rfl

end Attribute

/-! ## Markup tokens -/

def StartTag.shifted (n : Nat) (tag : StartTag) : StartTag :=
  { tag with span := tag.span.shifted n, attributes := tag.attributes.map (·.shifted n) }

namespace Token

/-- The token `n` bytes further on. -/
def shifted (n : Nat) : Token → Token
  | .start tag => .start (tag.shifted n)
  | .finish name span => .finish name (span.shifted n)
  | .opaqueText span => .opaqueText (span.shifted n)

variable (n : Nat) (c : Cursor)

theorem readComment_shifted :
    readComment (c.shifted n) = Prod.map (·.shifted n) (·.shifted n) (readComment c) := by
  unfold readComment
  simp only [Cursor.advance_shifted, Cursor.skipUntil_shifted, Cursor.atEnd_shifted]
  split <;> rfl

theorem readDeclaration?_shifted : readDeclaration? (c.shifted n) =
    (readDeclaration? c).map (Prod.map (·.shifted n) (·.shifted n)) := by
  unfold readDeclaration?
  simp only [Cursor.advance_shifted, Cursor.skipWhile_shifted, Cursor.atEnd_shifted]
  split <;> rfl

theorem readFinish?_shifted : readFinish? (c.shifted n) =
    (readFinish? c).map (Prod.map (·.shifted n) (·.shifted n)) := by
  unfold readFinish?
  simp only [Cursor.advance_shifted, Cursor.skipWhile_shifted, Cursor.atEnd_shifted]
  split <;> rfl

theorem readStart?_shifted : readStart? (c.shifted n) =
    (readStart? c).map (Prod.map (·.shifted n) (·.shifted n)) := by
  unfold readStart?
  simp only [Cursor.advance_shifted, Cursor.skipWhile_shifted, Attribute.readAll?_shifted]
  cases Attribute.readAll? ((c.advance 1).skipWhile isElementNameByte) <;> rfl

/-- **A token further on** is the same token, `n` bytes further on. -/
theorem read?_shifted : read? (c.shifted n) =
    (read? c).map (Prod.map (·.shifted n) (·.shifted n)) := by
  unfold read?
  rw [Cursor.shifted_rest]
  split
  · simp only [readComment_shifted, readDeclaration?_shifted, readFinish?_shifted,
      readStart?_shifted]
    split
    · rfl
    · split
      · rfl
      · split
        · rfl
        · split
          · rfl
          · split <;> rfl
  · rfl

end Token

end Shortcode
