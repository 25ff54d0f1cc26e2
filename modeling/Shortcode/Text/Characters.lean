import Shortcode.Text.Basic
import Shortcode.Text.CharacterClass

/-!
# The characters of a text

`decode?` reads the UTF-8 character in front of a text; `characters` reads them all.  A byte that
starts no character stands for the replacement character U+FFFD.  A text with no such byte is valid,
and a `ValidText` is a text that is.

    decode? (String.utf8EncodeChar c ++ rest) = some (c, rest)
-/

namespace Shortcode

open Byte

namespace Text

/-! ## Algorithm -/

/-- Adds `count` continuation bytes to the leading bits of a character. -/
def continued? : Nat → Nat → Text → Option (Nat × Text)
  | 0, bits, rest => some (bits, rest)
  | _ + 1, _, [] => none
  | count + 1, bits, b :: rest =>
    if isContinuation b then continued? count (bits * 0x40 + (b.toNat - 0x80)) rest else none

/-- The character of `count` continuation bytes after a leading byte.  A code point that fewer
bytes could write (one below `least`) is no character. -/
def multibyte? (count least bits : Nat) (rest : Text) : Option (Char × Text) :=
  match continued? count bits rest with
  | none => none
  | some (n, rest) => if least ≤ n ∧ n.isValidChar then some (Char.ofNat n, rest) else none

/-- The first character and the text after it. -/
def decode? : Text → Option (Char × Text)
  | [] => none
  | b :: rest =>
    if b < 0x80 then some (Char.ofNat b.toNat, rest)
    else if b < 0xC0 then none
    else if b < 0xE0 then multibyte? 1 0x80 (b.toNat - 0xC0) rest
    else if b < 0xF0 then multibyte? 2 0x800 (b.toNat - 0xE0) rest
    else if b < 0xF8 then multibyte? 3 0x10000 (b.toNat - 0xF0) rest
    else none

theorem length_continued_le {count bits n : Nat} {t rest : Text}
    (h : continued? count bits t = some (n, rest)) : rest.length ≤ t.length := by
  induction count generalizing bits t with
  | zero =>
    cases h
    exact Nat.le_refl _
  | succ count ih =>
    cases t with
    | nil => cases h
    | cons b t =>
      rw [continued?] at h
      split at h
      · exact Nat.le_succ_of_le (ih h)
      · cases h

theorem length_multibyte_le {count least bits : Nat} {t rest : Text} {c : Char}
    (h : multibyte? count least bits t = some (c, rest)) : rest.length ≤ t.length := by
  unfold multibyte? at h
  split at h
  · cases h
  · rename_i hc
    split at h
    · cases h
      exact length_continued_le hc
    · cases h

/-- A character takes at least one byte. -/
theorem length_decode_lt {t rest : Text} {c : Char} (h : decode? t = some (c, rest)) :
    rest.length < t.length := by
  cases t with
  | nil => cases h
  | cons b t =>
    simp only [decode?] at h
    split at h
    · cases h
      exact Nat.lt_succ_self _
    · split at h
      · cases h
      · split at h
        · exact Nat.lt_succ_of_le (length_multibyte_le h)
        · split at h
          · exact Nat.lt_succ_of_le (length_multibyte_le h)
          · split at h
            · exact Nat.lt_succ_of_le (length_multibyte_le h)
            · cases h

/-- The characters of a text. -/
def characters (t : Text) : List Char :=
  match h : decode? t with
  | some (c, rest) =>
    have := length_decode_lt h
    c :: characters rest
  | none =>
    match t with
    | [] => []
    | _ :: rest => '\uFFFD' :: characters rest
termination_by t.length

def ofCharacters (cs : List Char) : Text := cs.flatMap String.utf8EncodeChar

/-! ## Strings -/

/-- The text holds the bytes of a string. -/
def IsValid (t : Text) : Prop := ∃ cs : List Char, t = ofCharacters cs

theorem isValid_ofString (s : String) : IsValid (ofString s) := ⟨s.toList, rfl⟩

theorem isSome_toString?_iff (t : Text) : (toString? t).isSome = true ↔ t.IsValid := by
  have hbytes : ∀ l : List UInt8, l.toByteArray = ⟨l.toArray⟩ := by
    intro l
    exact ByteArray.ext (by simp)
  rw [toString?, String.fromUTF8?]
  constructor
  · intro h
    split at h
    · rename_i hvalid
      obtain ⟨cs, hcs⟩ := hvalid
      rw [List.utf8Encode, hbytes] at hcs
      exact ⟨cs, List.toArray_inj (ByteArray.mk.inj hcs)⟩
    · cases h
  · rintro ⟨cs, rfl⟩
    have hvalid : ByteArray.IsValidUTF8 ⟨(ofCharacters cs).toArray⟩ := ⟨cs, (hbytes _).symm⟩
    rw [dif_pos hvalid]
    rfl

instance : DecidablePred IsValid := fun t => decidable_of_iff _ t.isSome_toString?_iff

/-! ## Runs of characters -/

/-- The longest run in front of a text of characters that satisfy `p`, and the text after it. -/
def splitWhile (p : Char → Bool) (t : Text) : Text × Text :=
  match h : decode? t with
  | none => ([], t)
  | some (c, rest) =>
    if p c then
      have := length_decode_lt h
      let (run, after) := splitWhile p rest
      (String.utf8EncodeChar c ++ run, after)
    else ([], t)
termination_by t.length

theorem length_splitWhile_le (p : Char → Bool) (t : Text) :
    (splitWhile p t).2.length ≤ t.length := by
  induction hn : t.length using Nat.strongRecOn generalizing t with
  | _ n ih =>
    subst hn
    rw [splitWhile]
    split
    · exact Nat.le_refl _
    · rename_i c rest h
      have hlt := length_decode_lt h
      split
      · exact Nat.le_trans (ih _ hlt rest rfl) (Nat.le_of_lt hlt)
      · exact Nat.le_refl _

/-! ## Blank ends -/

/-- Whether the text holds white space only. -/
def isBlank (t : Text) : Bool := (t.splitWhile CharacterClass.isBlank).2.isEmpty

/-- The characters without the white space at either end. -/
def trimmed (cs : List Char) : List Char :=
  ((cs.dropWhile CharacterClass.isBlank).reverse.dropWhile CharacterClass.isBlank).reverse

/-- The text without the white space at either end. -/
def trim (t : Text) : Text := ofCharacters (trimmed t.characters)

end Text

/-- A text that is a string. -/
abbrev ValidText := { t : Text // t.IsValid }

namespace ValidText

def ofString (s : String) : ValidText := ⟨Text.ofString s, Text.isValid_ofString s⟩

/-- The text, if it is a string. -/
def ofText? (t : Text) : Option ValidText := if h : t.IsValid then some ⟨t, h⟩ else none

end ValidText

end Shortcode
