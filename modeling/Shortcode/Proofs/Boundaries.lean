import Mathlib.Data.List.Chain
import Shortcode.Markup.Token
import Shortcode.Proofs.CursorReach
import Shortcode.Tag.Reader

/-!
# Boundaries of characters

In the UTF-8 bytes of a string no continuation byte follows an ASCII byte.  So a text can be cut in
front of an ASCII byte and behind one, and a cursor that stops at ASCII bytes only stands between
characters, however it came there.

    (Text.ofString s).Regular                                                  (regular_ofString)
    c.Over (source.take hi) → (∀ b, p b = false → isAscii b = true) →
      (c.skipWhile p).Sound source hi                                      (Front.sound_skipWhile)
-/

namespace Shortcode

open Byte

/-! ## ASCII bytes -/

namespace Byte

/-- A byte that is a character of its own. -/
def isAscii (b : UInt8) : Bool := b < 0x80

theorem forall_of_table {P : UInt8 → Prop} (h : ∀ n, n < 256 → P n.toUInt8) (b : UInt8) : P b := by
  have hb := h b.toNat b.toNat_lt
  rwa [show b.toNat.toUInt8 = b by simp] at hb

theorem isAscii_ofNat : ∀ n, n < 256 → isAscii (UInt8.ofNat n) = decide (n < 0x80) := by
  intro n hn
  refine decide_eq_decide.2 ?_
  rw [UInt8.lt_iff_toNat_lt, UInt8.toNat_ofNat_of_lt' hn]
  rfl

theorem isContinuation_ofNat :
    ∀ n, n < 256 → isContinuation (UInt8.ofNat n) = decide (0x80 ≤ n ∧ n < 0xC0) := by
  intro n hn
  rw [isContinuation, Bool.decide_and]
  refine congrArg₂ _ (decide_eq_decide.2 ?_) (decide_eq_decide.2 ?_)
  · rw [UInt8.le_iff_toNat_le, UInt8.toNat_ofNat_of_lt' hn]
    rfl
  · rw [UInt8.lt_iff_toNat_lt, UInt8.toNat_ofNat_of_lt' hn]
    rfl

theorem not_isContinuation_of_isAscii : ∀ b, isAscii b = true → isContinuation b = false := by
  grind [isContinuation, isAscii]

theorem isAscii_of_isSpace : ∀ b, isSpace b = true → isAscii b = true := by
  grind [isSpace, isAscii]

theorem isAscii_of_isQuote : ∀ b, isQuote b = true → isAscii b = true := by
  grind [isQuote, isAscii]

theorem isAscii_of_isSeparator : ∀ b, isSeparator b = true → isAscii b = true := by
  grind [isSeparator, isSpace, isAscii]

theorem isAscii_of_isNameByte : ∀ b, isNameByte b = true → isAscii b = true := by
  grind [isNameByte, isAlphanumeric, isLetter, isDigit, isAscii]

theorem isAscii_of_not_isKeyByte : ∀ b, isKeyByte b = false → isAscii b = true := by
  simp only [isKeyByte, Bool.and_eq_false_iff, Bool.not_eq_false']
  grind [isSeparator, isSpace, isAscii]

theorem isAscii_of_not_isElementNameByte : ∀ b, isElementNameByte b = false → isAscii b = true := by
  grind [isElementNameByte, isSpace, isAscii]

theorem isAscii_of_not_isAttributeNameByte :
    ∀ b, isAttributeNameByte b = false → isAscii b = true := by
  grind [isAttributeNameByte, isSpace, isAscii]

theorem isAscii_of_not_isUnquotedValueByte :
    ∀ b, isUnquotedValueByte b = false → isAscii b = true := by
  grind [isUnquotedValueByte, isSpace, isAscii]

/-- A run that is ended by one byte only is ended by an ASCII byte. -/
theorem isAscii_of_bne_eq_false {q : UInt8} (hq : isAscii q = true) :
    ∀ b, (b != q) = false → isAscii b = true := by
  intro b hb
  rwa [show b = q by simpa using hb]

end Byte

/-! ## Texts -/

namespace Text

/-- No continuation byte follows an ASCII byte. -/
def Regular (text : Text) : Prop :=
  text.IsChain fun a b => isAscii a = true → isContinuation b = false

/-- A character is one ASCII byte, or a byte that starts a character and others that are not
ASCII. -/
theorem utf8EncodeChar_cases (c : Char) :
    (∃ b, String.utf8EncodeChar c = [b] ∧ isAscii b = true) ∨
      ∃ b rest, String.utf8EncodeChar c = b :: rest ∧ isContinuation b = false ∧
        ∀ x ∈ b :: rest, isAscii x = false := by
  have hlater : ∀ ns : List Nat, ∀ x ∈ ns.map fun n => UInt8.ofNat (n % 64 + 128),
      isAscii x = false := by
    intro ns x hx
    obtain ⟨n, -, rfl⟩ := List.mem_map.1 hx
    rw [isAscii_ofNat _ (by omega)]
    exact decide_eq_false (by omega)
  have hfirst : ∀ n, 0xC0 ≤ n → n < 256 →
      isAscii (UInt8.ofNat n) = false ∧ isContinuation (UInt8.ofNat n) = false := by
    intro n hle hlt
    rw [isAscii_ofNat n hlt, isContinuation_ofNat n hlt]
    exact ⟨decide_eq_false (by omega), decide_eq_false (by omega)⟩
  rw [String.utf8EncodeChar.eq_1]
  split
  · rename_i hle
    refine .inl ⟨_, rfl, ?_⟩
    rw [isAscii_ofNat _ (by omega)]
    exact decide_eq_true (by omega)
  · generalize c.val.toNat = v
    split
    · obtain ⟨h1, h2⟩ := hfirst (v / 64 % 32 + 192) (by omega) (by omega)
      exact .inr ⟨_, _, rfl, h2, List.forall_mem_cons.2 ⟨h1, hlater [v]⟩⟩
    · split
      · obtain ⟨h1, h2⟩ := hfirst (v / 4096 % 16 + 224) (by omega) (by omega)
        exact .inr ⟨_, _, rfl, h2, List.forall_mem_cons.2 ⟨h1, hlater [v / 64, v]⟩⟩
      · obtain ⟨h1, h2⟩ := hfirst (v / 262144 % 8 + 240) (by omega) (by omega)
        exact .inr ⟨_, _, rfl, h2, List.forall_mem_cons.2 ⟨h1, hlater [v / 4096, v / 64, v]⟩⟩

theorem regular_encode (chars : List Char) : Regular (chars.flatMap String.utf8EncodeChar) ∧
    ∀ b ∈ (chars.flatMap String.utf8EncodeChar).head?, isContinuation b = false := by
  induction chars with
  | nil => exact ⟨.nil, nofun⟩
  | cons c rest ih =>
    rw [List.flatMap_cons]
    rcases utf8EncodeChar_cases c with ⟨b, hc, hb⟩ | ⟨b, bytes, hc, hb, hall⟩
    · rw [hc]
      exact ⟨.append (.singleton b) ih.1 fun _ _ y hy _ => ih.2 y hy, by
        rintro x ⟨⟩
        exact not_isContinuation_of_isAscii b hb⟩
    · rw [hc]
      constructor
      · refine .append ?_ ih.1 fun _ _ y hy _ => ih.2 y hy
        refine List.isChain_iff_getElem.2 fun i hi hascii => ?_
        rw [hall _ (List.getElem_mem _)] at hascii
        cases hascii
      · rintro x ⟨⟩
        exact hb

theorem regular_ofString (s : String) : (ofString s).Regular := (regular_encode s.toList).1

/-! ### Boundaries -/

theorem isBoundary_zero (text : Text) : text.isBoundary 0 = true := rfl

theorem isBoundary_length (text : Text) : text.isBoundary text.length = true := by
  unfold isBoundary
  split
  · rfl
  · rw [List.getElem?_eq_none (Nat.le_refl _)]
    exact beq_self_eq_true _

/-- A text can be cut in front of an ASCII byte. -/
theorem isBoundary_of_isAscii {text : Text} {p : Nat} {b : UInt8} (hb : text[p]? = some b)
    (hascii : isAscii b = true) : text.isBoundary p = true := by
  unfold isBoundary
  split
  · rfl
  · rw [hb]
    simp [not_isContinuation_of_isAscii b hascii]

/-- A text can be cut behind an ASCII byte. -/
theorem Regular.isBoundary_succ {text : Text} (h : text.Regular) {p : Nat} {b : UInt8}
    (hb : text[p]? = some b) (hascii : isAscii b = true) : text.isBoundary (p + 1) = true := by
  obtain ⟨hp, rfl⟩ := List.getElem?_eq_some_iff.1 hb
  rw [isBoundary, if_neg (Nat.succ_ne_zero p)]
  cases hnext : text[p + 1]? with
  | none =>
    have hle := List.getElem?_eq_none_iff.1 hnext
    exact beq_iff_eq.2 (by omega)
  | some b' =>
    obtain ⟨hp', rfl⟩ := List.getElem?_eq_some_iff.1 hnext
    show (!isContinuation text[p + 1]) = true
    rw [List.isChain_iff_getElem.1 h p hp' hascii]
    rfl

/-- The text up to `hi` is made of whole characters of a text that can be cut at ASCII bytes. -/
structure Front (text : Text) (hi : Nat) : Prop where
  regular : text.Regular
  le_length : hi ≤ text.length
  boundary : text.isBoundary hi = true

theorem Regular.front {text : Text} (h : text.Regular) : text.Front text.length :=
  ⟨h, Nat.le_refl _, isBoundary_length text⟩

end Text

/-! ## Spans -/

/-- The spans are runs of whole characters of the text. -/
def Span.AllFit (source : Text) (spans : List Span) : Prop := ∀ s ∈ spans, s.fits source = true

namespace Span.AllFit

variable {source : Text} {s : Span} {a b : List Span}

theorem nil : AllFit source [] := nofun

theorem cons (hs : s.fits source = true) (ha : AllFit source a) : AllFit source (s :: a) :=
  List.forall_mem_cons.2 ⟨hs, ha⟩

theorem single (hs : s.fits source = true) : AllFit source [s] := .cons hs .nil

theorem append (ha : AllFit source a) (hb : AllFit source b) : AllFit source (a ++ b) :=
  List.forall_mem_append.2 ⟨ha, hb⟩

end Span.AllFit

/-! ## Cursors -/

/-- The cursor stands between two characters, in the text up to `hi`. -/
structure Cursor.Sound (source : Text) (hi : Nat) (c : Cursor) : Prop where
  within : c.Over (source.take hi)
  boundary : source.isBoundary c.pos = true

namespace Text

section

variable {source : Text} {hi : Nat} {c d : Cursor}

theorem getElem?_of_peek? (hc : c.Over (source.take hi)) {b : UInt8} (hb : c.peek? = some b) :
    source[c.pos]? = some b := by
  rw [Cursor.peek?, hc.2, List.head?_drop, List.getElem?_take] at hb
  split at hb
  · exact hb
  · cases hb

theorem sound_of_peek (hc : c.Over (source.take hi)) {b : UInt8} (hb : c.peek? = some b)
    (hascii : isAscii b = true) : c.Sound source hi :=
  ⟨hc, isBoundary_of_isAscii (getElem?_of_peek? hc hb) hascii⟩

variable (h : source.Front hi)

include h

theorem Front.sound_of_nil (hc : c.Over (source.take hi)) (hend : c.rest = []) :
    c.Sound source hi := by
  have hstop := hc.stop_eq
  rw [Cursor.stop, hend, List.length_take, Nat.min_eq_left h.le_length] at hstop
  have hpos : c.pos = hi := hstop
  exact ⟨hc, hpos ▸ h.boundary⟩

/-- A cursor that stands at the end or at an ASCII byte stands between characters. -/
theorem Front.sound_of_stop (hc : c.Over (source.take hi))
    (hstop : ∀ b, c.peek? = some b → isAscii b = true) : c.Sound source hi := by
  cases hb : c.peek? with
  | none => exact h.sound_of_nil hc (List.head?_eq_none_iff.1 hb)
  | some b => exact sound_of_peek hc hb (hstop b hb)

theorem Front.sound_next (hc : c.Over (source.take hi)) {b : UInt8} (hb : c.peek? = some b)
    (hascii : isAscii b = true) : (c.advance 1).Sound source hi :=
  ⟨(Cursor.reaches_next (Cursor.rest_ne_nil hb)).over hc,
    h.regular.isBoundary_succ (getElem?_of_peek? hc hb) hascii⟩

/-- A run that only an ASCII byte ends. -/
theorem Front.sound_skipWhile (hc : c.Over (source.take hi)) {p : UInt8 → Bool}
    (hp : ∀ b, p b = false → isAscii b = true) : (c.skipWhile p).Sound source hi := by
  refine h.sound_of_stop ((Cursor.reaches_skipWhile p c).over hc) fun b hb => hp b ?_
  have hhead := List.head?_dropWhile_not p c.rest
  rw [show (c.rest.dropWhile p).head? = some b from hb] at hhead
  exact hhead

/-- Such a run and the byte that ends it. -/
theorem Front.sound_next_skipWhile (hc : c.Over (source.take hi)) {p : UInt8 → Bool}
    (hp : ∀ b, p b = false → isAscii b = true) (hend : ¬ (c.skipWhile p).atEnd = true) :
    ((c.skipWhile p).advance 1).Sound source hi := by
  obtain ⟨b, rest, hrest⟩ := List.exists_cons_of_ne_nil (l := (c.skipWhile p).rest)
    (by simpa [Cursor.atEnd] using hend)
  have hb : (c.skipWhile p).peek? = some b := congrArg List.head? hrest
  have hhead := List.head?_dropWhile_not p c.rest
  rw [show (c.rest.dropWhile p).head? = some b from hb] at hhead
  exact h.sound_next (h.sound_skipWhile hc hp).within hb (hp b hhead)

theorem Front.sound_skipUntil (hc : c.Over (source.take hi)) {stop : Text → Bool}
    (hstop : ∀ b rest, stop (b :: rest) = true → isAscii b = true) :
    (c.skipUntil stop).Sound source hi := by
  refine h.sound_of_stop ((Cursor.reaches_skipUntil stop c).over hc) fun b hb => ?_
  obtain ⟨rest, hrest⟩ := List.head?_eq_some_iff.1 hb
  have hfound : stop (dropUntil stop c.rest) = true :=
    stop_dropUntil stop (Cursor.rest_ne_nil hb)
  exact hstop b rest (hrest ▸ hfound)

/-- A run of ASCII bytes. -/
theorem Front.sound_skipWhile_of_isAscii (hc : c.Sound source hi) {p : UInt8 → Bool}
    (hp : ∀ b, p b = true → isAscii b = true) : (c.skipWhile p).Sound source hi := by
  induction hn : c.rest.length generalizing c with
  | zero =>
    have hnil := List.eq_nil_of_length_eq_zero hn
    refine h.sound_of_nil ((Cursor.reaches_skipWhile p c).over hc.within) ?_
    exact (congrArg (List.dropWhile p) hnil).trans rfl
  | succ n ih =>
    obtain ⟨b, rest, hrest⟩ := List.exists_cons_of_length_eq_add_one hn
    have hb : c.peek? = some b := congrArg List.head? hrest
    cases hpb : p b with
    | false =>
      have hsame : c.skipWhile p = c := by
        obtain ⟨pos, _⟩ := c
        cases hrest
        simp [Cursor.skipWhile, hpb]
      rw [hsame]
      exact hc
    | true =>
      have hstep : c.skipWhile p = (c.advance 1).skipWhile p := by
        simp [Cursor.skipWhile, Cursor.advance, hrest, hpb]
        omega
      rw [hstep]
      refine ih (h.sound_next hc.within hb (hp b hpb)) ?_
      rw [Cursor.advance_rest, List.length_drop, hn]
      rfl

/-- Several ASCII bytes. -/
theorem Front.sound_advance (hc : c.Over (source.take hi)) {pattern : Text}
    (hpattern : pattern ≠ []) (hascii : ∀ b ∈ pattern, isAscii b = true)
    (hstarts : pattern <+: c.rest) : (c.advance pattern.length).Sound source hi := by
  induction pattern generalizing c with
  | nil => exact absurd rfl hpattern
  | cons b rest ih =>
    obtain ⟨t, ht⟩ := hstarts
    have hb : c.peek? = some b := congrArg List.head? ht.symm
    have hnext := h.sound_next hc hb (hascii b List.mem_cons_self)
    cases rest with
    | nil => exact hnext
    | cons b' rest =>
      rw [List.length_cons, Nat.add_comm, ← Cursor.advance_advance]
      refine ih hnext.within (List.cons_ne_nil _ _)
        (fun x hx => hascii x (List.mem_cons_of_mem _ hx)) ⟨t, ?_⟩
      rw [Cursor.advance_rest, ← ht]
      rfl

/-- What is left of the text. -/
theorem Front.fits_rest (hc : c.Sound source hi) :
    (Span.mk c.pos c.stop).fits source = true := by
  have hstop : c.stop = hi := by
    rw [hc.within.stop_eq, List.length_take, Nat.min_eq_left h.le_length]
  have hle := c.pos_le_stop
  rw [hstop] at hle ⊢
  simp [Span.fits, hc.boundary, h.boundary, h.le_length, hle]

omit h in
theorem Front.fits_spanTo (hc : c.Sound source hi) (hd : d.Sound source hi) (hreach : c.Reaches d) :
    (c.spanTo d).fits source = true := by
  have hle : d.pos ≤ source.length :=
    Nat.le_trans hd.within.1 (Nat.le_trans (Nat.le_of_eq List.length_take) (Nat.min_le_right _ _))
  simp [Span.fits, Cursor.spanTo, hc.boundary, hd.boundary, hreach.pos_le, hle]

end

end Text

end Shortcode
