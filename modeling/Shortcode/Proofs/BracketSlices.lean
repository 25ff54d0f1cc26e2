import Shortcode.Proofs.Boundaries
import Shortcode.Proofs.BracketOrder

/-!
# What reading a tag cuts out

Beside each reader stands the list of the spans that it cuts out of the text on the way, in order,
whether or not it then finds what it looks for.  From a cursor that stands between characters each
of these spans is a run of whole characters, and so is the tag that is found.

    c.peek? = some leftBracket → Span.AllFit source (Bracket.slices c)     (Front.sound_bracket)
-/

namespace Shortcode

open Byte

/-! ## Arguments -/

namespace Arguments

/-- What reading a value cuts out. -/
def valueSlices (stop : Terminator) (c : Cursor) : List Span :=
  match c.peek? with
  | some b =>
    if isQuote b then
      let first := c.advance 1
      let last := first.skipWhile (· != b)
      if last.atEnd then [] else [first.spanTo last]
    else [c.spanTo (c.skipUntil (endsBareValue stop))]
  | none => [c.spanTo c]

/-- What reading an entry cuts out.  Where no key stands, the character there is looked up in the
text that is left. -/
def entrySlices (stop : Terminator) (c : Cursor) : List Span :=
  match c.peek? with
  | none => []
  | some _ =>
    let afterKey := c.skipWhile isKeyByte
    let beforeSign := afterKey.skipWhile isSpace
    if (c.takeWhile isKeyByte).isEmpty then [⟨c.pos, c.stop⟩]
    else if beforeSign.peek? = some equals then
      c.spanTo afterKey :: valueSlices stop ((beforeSign.advance 1).skipWhile isSpace)
    else [c.spanTo afterKey]

/-- What reading a list cuts out. -/
def slices (stop : Terminator) (c : Cursor) : List Span :=
  let c' := c.skipWhile isSeparator
  if stop.reached c'.rest then []
  else
    entrySlices stop c' ++
      match h : entry stop c' with
      | .error _ => []
      | .ok (_, after) =>
        have : after.rest.length < c.rest.length :=
          Nat.lt_of_lt_of_le (length_entry_lt h) (Cursor.length_skipWhile_le _ _)
        slices stop after
termination_by c.rest.length

theorem isAscii_of_endsBareValue (stop : Terminator) (b : UInt8) (rest : Text)
    (h : endsBareValue stop (b :: rest) = true) : isAscii b = true := by
  rcases Bool.or_eq_true _ _ ▸ h with h | h
  · exact isAscii_of_isSeparator b h
  · cases stop with
    | endOfText => cases h
    | endOfTag =>
      simp only [Terminator.reached, List.isPrefixOf, Bool.or_eq_true, Bool.and_eq_true,
        beq_iff_eq] at h
      rcases h with ⟨rfl, -⟩ | ⟨rfl, -⟩
      · decide
      · decide

end Arguments

namespace Text

section

variable {source : Text} {hi : Nat} {c d : Cursor} (h : source.Front hi)

include h

theorem Front.sound_value (stop : Terminator) (hc : c.Sound source hi) :
    Span.AllFit source (Arguments.valueSlices stop c) ∧
      ∀ v d, Arguments.value stop c = .ok (v, d) → d.Sound source hi := by
  unfold Arguments.valueSlices Arguments.value
  cases hb : c.peek? with
  | none =>
    refine ⟨.single (Front.fits_spanTo hc hc (.refl c)), ?_⟩
    rintro v d ⟨⟩
    exact hc
  | some b =>
    simp only
    split
    · rename_i hquote
      have hascii := isAscii_of_isQuote b hquote
      have hfirst := h.sound_next hc.within hb hascii
      have hlast := h.sound_skipWhile hfirst.within (isAscii_of_bne_eq_false hascii)
      unfold Arguments.quotedValue
      simp only
      split
      · exact ⟨.nil, nofun⟩
      · rename_i hend
        refine ⟨.single (Front.fits_spanTo hfirst hlast (Cursor.reaches_skipWhile _ _)), ?_⟩
        rintro v d ⟨⟩
        exact h.sound_next_skipWhile hfirst.within (isAscii_of_bne_eq_false hascii) hend
    · have hlast := h.sound_skipUntil hc.within (Arguments.isAscii_of_endsBareValue stop)
      refine ⟨.single (Front.fits_spanTo hc hlast (Cursor.reaches_skipUntil _ _)), ?_⟩
      rintro v d ⟨⟩
      exact hlast

theorem Front.sound_entry (stop : Terminator) (hc : c.Sound source hi) :
    Span.AllFit source (Arguments.entrySlices stop c) ∧
      ∀ e d, Arguments.entry stop c = .ok (e, d) → d.Sound source hi := by
  have hkey := h.sound_skipWhile hc.within isAscii_of_not_isKeyByte
  have hfit := Front.fits_spanTo hc hkey (Cursor.reaches_skipWhile isKeyByte c)
  unfold Arguments.entrySlices Arguments.entry
  cases hb : c.peek? with
  | none => exact ⟨.nil, nofun⟩
  | some b =>
    simp only
    split
    · exact ⟨.single (h.fits_rest hc), nofun⟩
    · have hsign := h.sound_skipWhile_of_isAscii hkey isAscii_of_isSpace
      split
      · rename_i hequals
        have hnext := h.sound_next hsign.within hequals (by decide)
        have hvalue := h.sound_value stop
          (h.sound_skipWhile_of_isAscii hnext isAscii_of_isSpace)
        refine ⟨.cons hfit hvalue.1, fun e d he => ?_⟩
        cases hv : Arguments.value stop
            ((((c.skipWhile isKeyByte).skipWhile isSpace).advance 1).skipWhile isSpace) with
        | error e =>
          rw [hv] at he
          cases he
        | ok p =>
          rw [hv] at he
          cases he
          exact hvalue.2 _ _ hv
      · refine ⟨.single hfit, ?_⟩
        rintro e d ⟨⟩
        exact hkey

theorem Front.sound_arguments (stop : Terminator) (hc : c.Sound source hi) (args : Arguments) :
    Span.AllFit source (Arguments.slices stop c) ∧
      ∀ args' d, Arguments.readInto stop args c = .ok (args', d) → d.Sound source hi := by
  induction hn : c.rest.length using Nat.strongRecOn generalizing c args with
  | _ n ih =>
    subst hn
    have hskip := h.sound_skipWhile_of_isAscii hc isAscii_of_isSeparator
    have hentry := h.sound_entry stop hskip
    have hnext : ∀ {key value after}, Arguments.entry stop (c.skipWhile isSeparator) =
        .ok ((key, value), after) → Span.AllFit source (Arguments.slices stop after) ∧
          ∀ args' d, Arguments.readInto stop (args.insert key value) after = .ok (args', d) →
            d.Sound source hi := by
      intro key value after he
      have hlt := Nat.lt_of_lt_of_le (Arguments.length_entry_lt he)
        (Cursor.length_skipWhile_le isSeparator c)
      exact ih _ hlt (hentry.2 _ _ he) (args.insert key value) rfl
    constructor
    · rw [Arguments.slices]
      simp only
      split
      · exact .nil
      · split
        · exact .append hentry.1 .nil
        · rename_i he
          exact .append hentry.1 (hnext he).1
    · intro args' d hread
      rw [Arguments.readInto] at hread
      simp only at hread
      split at hread
      · cases hread
        exact hskip
      · split at hread
        · cases hread
        · rename_i he
          exact (hnext he).2 _ _ hread

end

end Text

/-! ## Bracket tags -/

/-- The byte behind the one at the cursor. -/
theorem Cursor.peek?_advance (c : Cursor) : (c.advance 1).peek? = c.peekAt? 1 := List.head?_drop

namespace Bracket

/-- What reading a name cuts out. -/
def nameSlices (c : Cursor) : List Span :=
  if (c.takeWhile isNameByte).isEmpty then [] else [c.spanTo (c.skipWhile isNameByte)]

/-- What reading an open tag cuts out; the arguments are read once the name ends as it may. -/
def openingSlices (c : Cursor) : List Span :=
  let afterName := c.skipWhile isNameByte
  nameSlices c ++
    if (c.takeWhile isNameByte).isEmpty || !nameEnds afterName.rest then []
    else Arguments.slices .endOfTag afterName

/-- What reading a tag without doubled brackets cuts out. -/
def singleSlices (c : Cursor) : List Span :=
  let inner := c.advance 1
  if inner.startsWith [slash] then nameSlices (inner.advance 1) else openingSlices inner

/-- What looking for a tag at a `[` cuts out. -/
def slices (c : Cursor) : List Span :=
  singleSlices (if c.peekAt? 1 == some leftBracket then c.advance 1 else c)

end Bracket

namespace Text

section

variable {source : Text} {hi : Nat} {c d : Cursor} (h : source.Front hi)

include h

theorem Front.sound_name (hc : c.Sound source hi) :
    Span.AllFit source (Bracket.nameSlices c) ∧ (c.skipWhile isNameByte).Sound source hi := by
  have hname := h.sound_skipWhile_of_isAscii hc isAscii_of_isNameByte
  refine ⟨?_, hname⟩
  unfold Bracket.nameSlices
  split
  · exact .nil
  · exact .single (Front.fits_spanTo hc hname (Cursor.reaches_skipWhile _ _))

/-- One step over a byte that is known to stand there. -/
theorem Front.sound_startsWith (hc : c.Over (source.take hi)) {b : UInt8}
    (hb : c.startsWith [b] = true) (hascii : isAscii b = true) : (c.advance 1).Sound source hi :=
  h.sound_advance hc (List.cons_ne_nil b []) (by simpa using hascii)
    (List.isPrefixOf_iff_prefix.1 hb)

theorem Front.sound_readClosing {context : Context} {start : Nat} {b : Bracket}
    (hc : c.Sound source hi) (hread : Bracket.readClosing context start c = some (b, d)) :
    d.Sound source hi := by
  unfold Bracket.readClosing at hread
  simp only at hread
  split at hread
  · cases hread
  · rename_i hn
    cases hread
    simp only [Bool.or_eq_true, Bool.not_eq_true', not_or, Bool.not_eq_false] at hn
    exact h.sound_startsWith (h.sound_name hc).2.within hn.2 (by decide)

theorem Front.sound_opening (hc : c.Sound source hi) :
    Span.AllFit source (Bracket.openingSlices c) ∧ ∀ {context start b d},
      Bracket.readOpening context start c = some (b, d) → d.Sound source hi := by
  obtain ⟨hfit, hname⟩ := h.sound_name hc
  have hargs := h.sound_arguments .endOfTag hname .empty
  unfold Bracket.openingSlices Bracket.readOpening
  simp only
  constructor
  · refine .append hfit ?_
    split
    · exact .nil
    · exact hargs.1
  · intro context start b d hread
    split at hread
    · cases hread
    · split at hread
      · cases hread
      · rename_i arguments stop hr
        have hstop := hargs.2 _ _ hr
        have hreached := (Arguments.reaches_of_readInto hr).2
        cases hread
        split
        · rename_i hs
          exact h.sound_advance hstop.within (List.cons_ne_nil slash [rightBracket])
            (by decide +kernel) (List.isPrefixOf_iff_prefix.1 hs)
        · rename_i hs
          rcases Bool.or_eq_true _ _ ▸ hreached with hb | hb
          · exact h.sound_startsWith hstop.within hb (by decide)
          · exact absurd hb hs

theorem Front.sound_single (hc : c.Sound source hi) (hpeek : c.peek? = some leftBracket) :
    Span.AllFit source (Bracket.singleSlices c) ∧
      ∀ {context b d}, Bracket.readSingle? context c = some (b, d) →
        d.Sound source hi ∧ b.span.fits source = true := by
  have hinner := h.sound_next hc.within hpeek (by decide)
  have hspan : ∀ {context b d}, Bracket.readSingle? context c = some (b, d) → d.Sound source hi →
      d.Sound source hi ∧ b.span.fits source = true := by
    intro context b d hread hd
    obtain ⟨hreach, hspan, -⟩ :=
      Bracket.readFrom_of_readSingle (Cursor.rest_ne_nil hpeek) hread
    exact ⟨hd, hspan ▸ Front.fits_spanTo hc hd hreach⟩
  have hslash := fun hs => h.sound_startsWith hinner.within (b := slash) hs (by decide)
  have hopening := h.sound_opening hinner
  constructor
  · unfold Bracket.singleSlices
    simp only
    split
    · rename_i hs
      exact (h.sound_name (hslash hs)).1
    · exact hopening.1
  · intro context b d hread
    refine hspan hread ?_
    unfold Bracket.readSingle? at hread
    simp only at hread
    split at hread
    · rename_i hs
      exact h.sound_readClosing (hslash hs) hread
    · exact hopening.2 hread

end

end Text

/-- The tag is a run of whole characters, with its doubled brackets and without. -/
structure Bracket.Fits (source : Text) (b : Bracket) : Prop where
  span : b.span.fits source = true
  outer : b.outer.fits source = true

namespace Text

section

variable {source : Text} {hi : Nat} {c d : Cursor} (h : source.Front hi)

include h

/-- Looking for a tag at a `[` cuts out whole characters, and so does the tag. -/
theorem Front.sound_bracket (hc : c.Over (source.take hi)) (hpeek : c.peek? = some leftBracket) :
    Span.AllFit source (Bracket.slices c) ∧ ∀ {context b d},
      Bracket.read? context c = some (b, d) → d.Sound source hi ∧ b.Fits source := by
  have hsound := sound_of_peek hc hpeek (by decide)
  have hfirst : ∀ {lead}, (c.peekAt? 1 == some leftBracket) = lead →
      (if lead = true then c.advance 1 else c).Sound source hi ∧
        (if lead = true then c.advance 1 else c).peek? = some leftBracket := by
    rintro lead hlead
    cases lead with
    | false => exact ⟨hsound, hpeek⟩
    | true =>
      refine ⟨h.sound_next hc hpeek (by decide), ?_⟩
      exact c.peek?_advance.trans (beq_iff_eq.1 hlead)
  obtain ⟨hstart, hstartPeek⟩ := hfirst rfl
  have hsingle := h.sound_single hstart hstartPeek
  refine ⟨hsingle.1, fun {context b d} hread => ?_⟩
  have houter := Bracket.readFrom_of_read hread
  unfold Bracket.read? at hread
  simp only at hread
  split at hread
  · cases hread
  · rename_i b' after hs
    obtain ⟨hafter, hspan⟩ := hsingle.2 hs
    have hd : d.Sound source hi := by
      cases hread
      split
      · rename_i htrail
        exact h.sound_startsWith hafter.within htrail (by decide)
      · exact hafter
    have hb : b.span = b'.span := by
      cases hread
      rfl
    exact ⟨hd, hb ▸ hspan, houter.outer_eq ▸ Front.fits_spanTo hsound hd houter.reaches⟩

end

end Text

end Shortcode
