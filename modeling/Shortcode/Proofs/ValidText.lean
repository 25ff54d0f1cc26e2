import Mathlib.Data.List.TakeWhile
import Shortcode.Files
import Shortcode.Proofs.Boundaries
import Shortcode.Text.Characters

/-!
# Texts that are strings

A text is valid if it holds the UTF-8 bytes of a string.  Valid texts may be put together, and they
may be cut in front of an ASCII byte and behind one.  The text of a file is accepted iff it is
valid.

    (a ++ t).IsValid → (∀ b ∈ t.head?, isAscii b = true) → a.IsValid ∧ t.IsValid      (IsValid.cut)
    checkText t = .ok t ↔ t.IsValid                                          (checkText_eq_ok_iff)
-/

namespace Shortcode

open Byte

namespace Text

theorem ofCharacters_cons (c : Char) (cs : List Char) :
    ofCharacters (c :: cs) = String.utf8EncodeChar c ++ ofCharacters cs :=
  List.flatMap_cons

theorem ofCharacters_append (cs ds : List Char) :
    ofCharacters (cs ++ ds) = ofCharacters cs ++ ofCharacters ds :=
  List.flatMap_append

theorem isValid_nil : IsValid [] := ⟨[], rfl⟩

theorem isValid_encode (c : Char) : IsValid (String.utf8EncodeChar c) :=
  ⟨[c], by rw [ofCharacters, List.flatMap_singleton]⟩

theorem IsValid.append {a b : Text} (ha : IsValid a) (hb : IsValid b) : IsValid (a ++ b) := by
  obtain ⟨cs, rfl⟩ := ha
  obtain ⟨ds, rfl⟩ := hb
  exact ⟨cs ++ ds, (ofCharacters_append cs ds).symm⟩

theorem encode_of_isAscii (b : UInt8) (hb : isAscii b = true) :
    String.utf8EncodeChar (Char.ofNat b.toNat) = [b] :=
  forall_of_table
    (P := fun b => isAscii b = true → String.utf8EncodeChar (Char.ofNat b.toNat) = [b])
    (by decide +kernel) b hb

theorem isValid_singleton {b : UInt8} (hb : isAscii b = true) : IsValid [b] := by
  rw [← encode_of_isAscii b hb]
  exact isValid_encode _

theorem IsValid.cons {b : UInt8} {t : Text} (hb : isAscii b = true) (ht : IsValid t) :
    IsValid (b :: t) :=
  (isValid_singleton hb).append ht

theorem isValid_of_isAscii {t : Text} (h : ∀ b ∈ t, isAscii b = true) : IsValid t := by
  induction t with
  | nil => exact isValid_nil
  | cons b t ih =>
    obtain ⟨hb, ht⟩ := List.forall_mem_cons.1 h
    exact .cons hb (ih ht)

/-! ## Cutting -/

/-- A valid text that is not empty starts with a character, and the rest is valid. -/
theorem IsValid.cases {t : Text} (h : IsValid t) :
    t = [] ∨ ∃ c rest, t = String.utf8EncodeChar c ++ rest ∧ IsValid rest := by
  obtain ⟨cs, rfl⟩ := h
  cases cs with
  | nil => exact .inl rfl
  | cons c cs => exact .inr ⟨c, ofCharacters cs, ofCharacters_cons c cs, cs, rfl⟩

/-- Induction over the characters of a valid text. -/
theorem IsValid.induction {motive : (t : Text) → IsValid t → Prop} (nil : motive [] isValid_nil)
    (character : ∀ c rest (h : IsValid rest), motive rest h →
      motive (String.utf8EncodeChar c ++ rest) ((isValid_encode c).append h))
    {t : Text} (h : IsValid t) : motive t h := by
  obtain ⟨cs, rfl⟩ := h
  induction cs with
  | nil => exact nil
  | cons c cs ih => exact character c _ ⟨cs, rfl⟩ ih

/-- A valid text may be cut in front of an ASCII byte. -/
theorem IsValid.cut {a t : Text} (h : IsValid (a ++ t))
    (ht : ∀ b ∈ t.head?, isAscii b = true) : IsValid a ∧ IsValid t := by
  generalize hs : a ++ t = s at h
  induction h using IsValid.induction generalizing a with
  | nil =>
    obtain ⟨rfl, rfl⟩ := List.append_eq_nil_iff.1 hs
    exact ⟨isValid_nil, isValid_nil⟩
  | character c rest hrest ih =>
    rcases List.append_eq_append_iff.1 hs with ⟨d, hc, rfl⟩ | ⟨a', rfl, hrest'⟩
    · cases a with
      | nil =>
        rw [List.nil_append] at hs
        exact ⟨isValid_nil, hs ▸ (isValid_encode c).append hrest⟩
      | cons x a =>
        cases d with
        | nil =>
          rw [List.append_nil] at hc
          exact ⟨hc ▸ isValid_encode c, hrest⟩
        | cons y d =>
          -- no byte of a character of several bytes is ASCII
          rcases utf8EncodeChar_cases c with ⟨b, hb, -⟩ | ⟨b, bytes, hb, -, hall⟩
          · rw [hb] at hc
            have hlength := congrArg List.length hc
            simp at hlength
          · have hy : isAscii y = false := hall y (by rw [← hb, hc]; simp)
            rw [ht y rfl] at hy
            cases hy
    · obtain ⟨ha', ht'⟩ := ih hrest'.symm
      exact ⟨(isValid_encode c).append ha', ht'⟩

/-- Behind an ASCII byte. -/
theorem IsValid.tail {b : UInt8} {t : Text} (h : IsValid (b :: t)) (hb : isAscii b = true) :
    IsValid t := by
  rcases h.cases with h | ⟨c, rest, hc, hrest⟩
  · cases h
  · rcases utf8EncodeChar_cases c with ⟨b', hb', -⟩ | ⟨b', bytes, hb', -, hall⟩
    · rw [hb'] at hc
      cases hc
      exact hrest
    · rw [hb'] at hc
      obtain rfl : b = b' := (List.cons.inj hc).1
      rw [hall b List.mem_cons_self] at hb
      cases hb

/-- A text in front of an ASCII byte and the text behind it. -/
theorem IsValid.cut_around {a rest : Text} {b : UInt8} (h : IsValid (a ++ b :: rest))
    (hb : isAscii b = true) : IsValid a ∧ IsValid rest := by
  obtain ⟨ha, ht⟩ := h.cut (by rintro x ⟨⟩; exact hb)
  exact ⟨ha, ht.tail hb⟩

/-- Behind a text of ASCII bytes. -/
theorem IsValid.drop_ascii {a t : Text} (h : IsValid (a ++ t)) (ha : ∀ b ∈ a, isAscii b = true) :
    IsValid t := by
  induction a with
  | nil => exact h
  | cons b a ih =>
    obtain ⟨hb, ha⟩ := List.forall_mem_cons.1 ha
    exact ih (h.tail hb) ha

/-! ## Characters -/

theorem ofNat_lt_iff {n : Nat} (h : n < 256) (b : UInt8) : UInt8.ofNat n < b ↔ n < b.toNat := by
  rw [UInt8.lt_iff_toNat_lt, UInt8.toNat_ofNat_of_lt' h]

theorem continued?_cons (count bits n : Nat) (rest : Text) :
    continued? (count + 1) bits (UInt8.ofNat (n % 64 + 128) :: rest) =
      continued? count (bits * 64 + n % 64) rest := by
  have hcontinuation : isContinuation (UInt8.ofNat (n % 64 + 128)) = true := by
    rw [isContinuation_ofNat _ (by omega)]
    exact decide_eq_true (by omega)
  have hlt : n % 64 + 128 < 256 := by omega
  rw [continued?, if_pos hcontinuation, UInt8.toNat_ofNat_of_lt' hlt, Nat.add_sub_cancel]

theorem multibyte?_of_continued {count least bits n : Nat} {c : Char} {t rest : Text}
    (h : continued? count bits t = some (n, rest)) (hn : n = c.toNat) (hleast : least ≤ n) :
    multibyte? count least bits t = some (c, rest) := by
  have hvalid : c.toNat.isValidChar := c.valid
  rw [multibyte?, h]
  simp only [hn, hn ▸ hleast, hvalid, and_self, if_true, Char.ofNat_toNat]

/-- The character in front of a text is read. -/
theorem decode?_encode (c : Char) (rest : Text) :
    decode? (String.utf8EncodeChar c ++ rest) = some (c, rest) := by
  have hbound : c.toNat < 0x110000 := by
    have hvalid : c.toNat.isValidChar := c.valid
    unfold Nat.isValidChar at hvalid
    omega
  rw [String.utf8EncodeChar.eq_1]
  simp only [Char.toNat_val]
  split
  · rename_i hle
    have hlt : c.toNat < 256 := by omega
    have hascii : UInt8.ofNat c.toNat < 0x80 := (ofNat_lt_iff hlt _).2 (Nat.lt_succ_of_le hle)
    rw [List.singleton_append, decode?, if_pos hascii, UInt8.toNat_ofNat_of_lt' hlt,
      Char.ofNat_toNat]
  · have hfirst : ∀ n, n < 256 → ∀ t, decode? (UInt8.ofNat n :: t) =
        if n < 0x80 then some (Char.ofNat n, t)
        else if n < 0xC0 then none
        else if n < 0xE0 then multibyte? 1 0x80 (n - 0xC0) t
        else if n < 0xF0 then multibyte? 2 0x800 (n - 0xE0) t
        else if n < 0xF8 then multibyte? 3 0x10000 (n - 0xF0) t
        else none := by
      intro n hn t
      simp only [decode?, ofNat_lt_iff hn, UInt8.toNat_ofNat_of_lt' hn]
      rfl
    split
    · simp only [List.cons_append, List.nil_append]
      rw [hfirst _ (by omega), if_neg (by omega), if_neg (by omega), if_pos (by omega)]
      refine multibyte?_of_continued (continued?_cons ..) ?_ ?_ <;> omega
    · split
      · simp only [List.cons_append, List.nil_append]
        rw [hfirst _ (by omega), if_neg (by omega), if_neg (by omega), if_neg (by omega),
          if_pos (by omega)]
        refine multibyte?_of_continued ((continued?_cons ..).trans (continued?_cons ..)) ?_ ?_ <;>
          omega
      · simp only [List.cons_append, List.nil_append]
        rw [hfirst _ (by omega), if_neg (by omega), if_neg (by omega), if_neg (by omega),
          if_neg (by omega), if_pos (by omega)]
        refine multibyte?_of_continued ((continued?_cons ..).trans
          ((continued?_cons ..).trans (continued?_cons ..))) ?_ ?_ <;> omega

/-- Behind a character. -/
theorem isValid_of_encode_append {c : Char} {t : Text}
    (h : IsValid (String.utf8EncodeChar c ++ t)) : IsValid t := by
  have hdecode := decode?_encode c t
  rcases h.cases with h | ⟨d, rest, h, hrest⟩
  · rw [h] at hdecode
    cases hdecode
  · rw [h, decode?_encode] at hdecode
    cases hdecode
    exact hrest

/-- Behind a valid text. -/
theorem IsValid.of_append {a t : Text} (ha : IsValid a) (h : IsValid (a ++ t)) : IsValid t := by
  induction ha using IsValid.induction with
  | nil => exact h
  | character c rest _ ih =>
    rw [List.append_assoc] at h
    exact ih (isValid_of_encode_append h)

/-- A run of characters ends between two characters. -/
theorem IsValid.splitWhile {t : Text} (h : IsValid t) (p : Char → Bool) :
    IsValid (splitWhile p t).2 := by
  induction h using IsValid.induction with
  | nil =>
    rw [Text.splitWhile]
    exact isValid_nil
  | character c rest hrest ih =>
    have hdecode := decode?_encode c rest
    rw [Text.splitWhile]
    split
    · rename_i hnone
      cases hnone.symm.trans hdecode
    · rename_i hsome
      cases hsome.symm.trans hdecode
      split
      · exact ih
      · exact (isValid_encode c).append hrest

theorem characters_ofCharacters (cs : List Char) : (ofCharacters cs).characters = cs := by
  induction cs with
  | nil =>
    rw [characters]
    rfl
  | cons c cs ih =>
    have hdecode := decode?_encode c (ofCharacters cs)
    rw [ofCharacters_cons, characters]
    split
    · rename_i hsome
      cases hsome.symm.trans hdecode
      rw [ih]
    · rename_i hnone
      cases hnone.symm.trans hdecode

theorem ofCharacters_injective : Function.Injective ofCharacters :=
  Function.LeftInverse.injective characters_ofCharacters

/-- An ASCII byte stands in no other character. -/
theorem notMem_encode {b : UInt8} (hb : isAscii b = true) {c : Char}
    (hc : c ≠ Char.ofNat b.toNat) : b ∉ String.utf8EncodeChar c := by
  intro hmem
  rcases utf8EncodeChar_cases c with ⟨b', hbytes, -⟩ | ⟨_, _, hbytes, -, hall⟩
  · rw [hbytes, List.mem_singleton] at hmem
    subst hmem
    rw [← encode_of_isAscii b hb] at hbytes
    have hdecode := decode?_encode c []
    rw [hbytes, decode?_encode] at hdecode
    cases hdecode
    exact hc rfl
  · rw [hall b (hbytes ▸ hmem)] at hb
    cases hb

theorem splitWhile_ofCharacters (p : Char → Bool) (cs : List Char) :
    (ofCharacters cs).splitWhile p =
      (ofCharacters (cs.takeWhile p), ofCharacters (cs.dropWhile p)) := by
  induction cs with
  | nil =>
    rw [splitWhile]
    rfl
  | cons c cs ih =>
    have hdecode := decode?_encode c (ofCharacters cs)
    rw [ofCharacters_cons, splitWhile]
    split
    · rename_i hnone
      cases hnone.symm.trans hdecode
    · rename_i hsome
      cases hsome.symm.trans hdecode
      rw [ih, List.takeWhile_cons, List.dropWhile_cons]
      split
      · rw [ofCharacters_cons]
      · rw [ofCharacters_cons]
        rfl

/-! ## Runs of bytes -/

section

variable {t : Text} {p : UInt8 → Bool}

/-- A run of bytes may be cut off if just ASCII bytes end it. -/
theorem IsValid.cut_run (h : IsValid t) (hp : ∀ b, p b = false → isAscii b = true) :
    IsValid (t.takeWhile p) ∧ IsValid (t.dropWhile p) := by
  refine IsValid.cut (by rwa [List.takeWhile_append_dropWhile]) fun b hb => hp b ?_
  have hhead := List.head?_dropWhile_not p t
  rw [Option.mem_def.1 hb] at hhead
  exact hhead

/-- A run of ASCII bytes may be cut off. -/
theorem IsValid.cut_asciiRun (h : IsValid t) (hp : ∀ b, p b = true → isAscii b = true) :
    IsValid (t.takeWhile p) ∧ IsValid (t.dropWhile p) := by
  have hrun : ∀ b ∈ t.takeWhile p, isAscii b = true := fun b hb =>
    hp b (List.mem_takeWhile_imp hb)
  refine ⟨isValid_of_isAscii hrun, IsValid.drop_ascii (a := t.takeWhile p) ?_ hrun⟩
  rwa [List.takeWhile_append_dropWhile]

end

end Text

/-! ## Files -/

theorem checkText_eq_ok_iff {t : Text} : checkText t = .ok t ↔ t.IsValid := by
  rw [← Text.isSome_toString?_iff, checkText]
  split
  · rename_i h
    exact iff_of_true rfl h
  · rename_i h
    exact iff_of_false nofun h

/-- The text that is read is valid. -/
theorem isValid_of_checkText {bytes t : Text} (h : checkText bytes = .ok t) :
    t = bytes ∧ t.IsValid := by
  rw [checkText] at h
  split at h
  · rename_i hvalid
    cases h
    exact ⟨rfl, (Text.isSome_toString?_iff _).1 hvalid⟩
  · cases h

end Shortcode
