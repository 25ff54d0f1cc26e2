import Shortcode.Proofs.TokenOrder
import Shortcode.Proofs.Twins

/-!
# Markup at two places

A markup token that stands in a run of text is read at both places of the run (`TwoPlaces`).  A
comment without its `-->` is a token too, but how far it goes depends on the text behind the run.

    k.Twins c d → Token.read? c = some (t, c') → c'.pos < k.stop →
      ∃ d', Token.read? d = some (t.moved k, d') ∧ k.Twins c' d'        (Token.read_inside_of_twins)
-/

namespace Shortcode

open Byte

/-! ## Moved tokens -/

/-- The attribute at the right place for one at the left place. -/
def Attribute.moved (k : TwoPlaces) (a : Attribute) : Attribute :=
  { a with value := a.value.map k.move }

def StartTag.moved (k : TwoPlaces) (tag : StartTag) : StartTag :=
  { tag with span := k.move tag.span, attributes := tag.attributes.map (·.moved k) }

/-- The token at the right place for one at the left place. -/
def Token.moved (k : TwoPlaces) : Token → Token
  | .start tag => .start (tag.moved k)
  | .finish name span => .finish name (k.move span)
  | .opaqueText span => .opaqueText (k.move span)

theorem StartTag.rawText?_moved (k : TwoPlaces) (tag : StartTag) :
    (tag.moved k).rawText? = tag.rawText? := rfl

/-! ## Attributes -/

namespace Attribute

variable {k : TwoPlaces} {c c' d : Cursor}

theorem readValue_of_twins (h : k.Twins c d) {v : Span} (hread : readValue? c = some (v, c'))
    (hlt : c'.pos < k.stop) : ∃ d', readValue? d = some (k.move v, d') ∧ k.Twins c' d' := by
  have hpos := Nat.lt_of_le_of_lt (reaches_of_readValue hread).1.pos_le hlt
  unfold readValue? at hread ⊢
  rw [h.peek? hpos]
  cases hb : c.peek? with
  | none => rw [hb] at hread; cases hread
  | some b =>
    rw [hb] at hread
    simp only at hread ⊢
    split at hread
    · rename_i hquote
      rw [if_pos hquote]
      split at hread
      · cases hread
      · cases hread
        have hfirst := h.advance (n := 1) hpos
        have hlast : ((c.advance 1).skipWhile (· != b)).pos < k.stop := Nat.lt_of_succ_lt hlt
        obtain ⟨htwins, -⟩ := hfirst.skipWhile _ hlast
        refine ⟨_, ?_, htwins.advance hlast⟩
        rw [(htwins.atEnd hlast).2, hfirst.spanTo htwins]
        rfl
    · rename_i hquote
      rw [if_neg hquote]
      cases hread
      obtain ⟨htwins, -⟩ := h.skipWhile isUnquotedValueByte hlt
      exact ⟨_, by rw [h.spanTo htwins], htwins⟩

/-- An attribute with room behind it up to what follows the white space, where an `=` might
stand. -/
theorem read_of_twins (h : k.Twins c d) {a : Attribute} (hread : read? c = some (a, c'))
    (hne : c.rest ≠ []) (hlt : (c'.skipWhile isSpace).pos < k.stop) :
    ∃ d', read? d = some (a.moved k, d') ∧ k.Twins c' d' := by
  have hspace := Cursor.reaches_skipWhile isSpace ((c.advance 1).skipWhile isAttributeNameByte)
  have hname := Cursor.reaches_skipWhile isAttributeNameByte (c.advance 1)
  -- in both cases the white space behind the name ends inside
  have hsign : (((c.advance 1).skipWhile isAttributeNameByte).skipWhile isSpace).pos < k.stop := by
    unfold read? at hread
    simp only at hread
    split at hread
    · rename_i hequals
      obtain ⟨⟨v, after⟩, hv, he⟩ := Option.map_eq_some_iff.1 hread
      cases he
      have h1 := Cursor.reaches_next (Cursor.rest_ne_nil hequals)
      have h2 := (h1.trans (Cursor.reaches_skipWhile isSpace _)).trans (reaches_of_readValue hv).1
      have h3 := h2.trans (Cursor.reaches_skipWhile isSpace after)
      exact Nat.lt_of_le_of_lt h3.pos_le hlt
    · cases hread
      exact hlt
  have hnamePos := Nat.lt_of_le_of_lt hspace.pos_le hsign
  have hroom : c.pos + 1 ≤ k.stop := Nat.le_trans hname.pos_le (Nat.le_of_lt hnamePos)
  obtain ⟨h1, -⟩ := (h.advance hroom).skipWhile isAttributeNameByte hnamePos
  obtain ⟨h2, -⟩ := h1.skipWhile isSpace hsign
  have hslice : d.slice (d.spanTo ((d.advance 1).skipWhile isAttributeNameByte)) =
      c.slice (c.spanTo ((c.advance 1).skipWhile isAttributeNameByte)) := by
    have hle := (((Cursor.reaches_next hne).trans hname)).pos_le
    have hleft := h.left_le
    have hlength : ((d.advance 1).skipWhile isAttributeNameByte).pos - d.pos =
        ((c.advance 1).skipWhile isAttributeNameByte).pos - c.pos := by
      rw [h.pos_eq, h1.pos_eq]
      omega
    unfold Cursor.slice Cursor.spanTo Span.length
    simp only [Nat.sub_self, List.drop_zero, hlength]
    refine h.rest_take ?_
    omega
  unfold read? at hread ⊢
  simp only at hread ⊢
  rw [hslice, h2.peek? hsign]
  split at hread
  · rename_i hequals
    rw [if_pos hequals]
    obtain ⟨⟨v, after⟩, hv, he⟩ := Option.map_eq_some_iff.1 hread
    cases he
    have hend : after.pos < k.stop :=
      Nat.lt_of_le_of_lt (Cursor.reaches_skipWhile isSpace after).pos_le hlt
    have hvalue := Nat.lt_of_le_of_lt (reaches_of_readValue hv).1.pos_le hend
    obtain ⟨h3, -⟩ := (h2.advance (n := 1) hsign).skipWhile isSpace hvalue
    obtain ⟨d', hd, htwins⟩ := readValue_of_twins h3 hv hend
    refine ⟨d', ?_, htwins⟩
    rw [hd]
    rfl
  · rename_i hequals
    rw [if_neg hequals]
    cases hread
    exact ⟨_, rfl, h1⟩

/-! ## All attributes of a tag -/

/-- How the attributes of a tag are read up to its end. -/
inductive Reads : Cursor → List Attribute → Bool → Cursor → Prop
  | greater {c : Cursor} : (c.skipWhile isSpace).peek? = some Byte.greater →
      Reads c [] false ((c.skipWhile isSpace).advance 1)
  | close {c : Cursor} : (c.skipWhile isSpace).peek? = some Byte.slash →
      (c.skipWhile isSpace).peekAt? 1 = some Byte.greater →
      Reads c [] true ((c.skipWhile isSpace).advance 2)
  | slash {c d : Cursor} {as : List Attribute} {s : Bool} :
      (c.skipWhile isSpace).peek? = some Byte.slash →
      (c.skipWhile isSpace).peekAt? 1 ≠ some Byte.greater →
      Reads ((c.skipWhile isSpace).advance 1) as s d → Reads c as s d
  | next {c d e : Cursor} {a : Attribute} {as : List Attribute} {s : Bool} {b : UInt8} :
      (c.skipWhile isSpace).peek? = some b → b ≠ Byte.greater → b ≠ Byte.slash →
      read? (c.skipWhile isSpace) = some (a, d) → Reads d as s e → Reads c (a :: as) s e

theorem readAll?_of_nil (hrest : (c.skipWhile isSpace).rest = []) : readAll? c = none := by
  rw [readAll?]
  simp only
  split
  · rfl
  · rename_i hcons
    cases hrest.symm.trans hcons

/-- What the first byte behind the white space makes of a tag. -/
theorem readAll?_of_rest {b : UInt8} {rest : Text}
    (hrest : (c.skipWhile isSpace).rest = b :: rest) :
    readAll? c =
      if b = Byte.greater then some ([], false, (c.skipWhile isSpace).advance 1)
      else if b = Byte.slash then
        if rest.head? = some Byte.greater then some ([], true, (c.skipWhile isSpace).advance 2)
        else readAll? ((c.skipWhile isSpace).advance 1)
      else (read? (c.skipWhile isSpace)).bind fun (a, after) =>
        (readAll? after).map fun (more, selfClosing, stop) => (a :: more, selfClosing, stop) := by
  rw [readAll?]
  simp only
  split
  · rename_i hnil
    cases hnil.symm.trans hrest
  · rename_i b' rest' hrest'
    cases hrest'.symm.trans hrest
    split
    · rfl
    · split
      · rfl
      · split
        · rename_i hnone
          rw [hnone]
          rfl
        · rename_i a after hsome
          rw [hsome]
          rfl

theorem reads_of_readAll {as : List Attribute} {s : Bool} (hread : readAll? c = some (as, s, d)) :
    Reads c as s d := by
  induction hn : c.rest.length using Nat.strongRecOn generalizing c as with
  | _ n ih =>
    subst hn
    have hle := Cursor.length_skipWhile_le isSpace c
    cases hrest : (c.skipWhile isSpace).rest with
    | nil =>
      rw [readAll?_of_nil hrest] at hread
      cases hread
    | cons b rest =>
      have hne : (c.skipWhile isSpace).rest ≠ [] := by simp [hrest]
      have hpeek : (c.skipWhile isSpace).peek? = some b := congrArg List.head? hrest
      have hsecond : (c.skipWhile isSpace).peekAt? 1 = rest.head? := by
        simp [Cursor.peekAt?, hrest, List.head?_eq_getElem?]
      rw [readAll?_of_rest hrest] at hread
      by_cases hgreater : b = Byte.greater
      · rw [if_pos hgreater] at hread
        cases hread
        exact .greater (hgreater ▸ hpeek)
      · rw [if_neg hgreater] at hread
        by_cases hslash : b = Byte.slash
        · subst hslash
          rw [if_pos rfl] at hread
          by_cases hclose : rest.head? = some Byte.greater
          · rw [if_pos hclose] at hread
            cases hread
            exact .close hpeek (hsecond.trans hclose)
          · rw [if_neg hclose] at hread
            have hlt := Cursor.length_advance_lt (by decide : 0 < 1) hne
            exact .slash hpeek (hsecond ▸ hclose) (ih _ (by omega) hread rfl)
        · rw [if_neg hslash] at hread
          obtain ⟨⟨a, after⟩, ha, hmap⟩ := Option.bind_eq_some_iff.1 hread
          obtain ⟨⟨more, s', stop⟩, hmore, he⟩ := Option.map_eq_some_iff.1 hmap
          cases he
          have hlt := length_read_lt hne ha
          exact .next hpeek hgreater hslash ha (ih _ (by omega) hmore rfl)

theorem readAll_of_reads {as : List Attribute} {s : Bool} (hreads : Reads c as s d) :
    readAll? c = some (as, s, d) := by
  induction hreads with
  | greater hpeek =>
    obtain ⟨rest, hrest⟩ := List.head?_eq_some_iff.1 hpeek
    rw [readAll?_of_rest hrest, if_pos rfl]
  | close hpeek hsecond =>
    obtain ⟨rest, hrest⟩ := List.head?_eq_some_iff.1 hpeek
    rw [Cursor.peekAt?, hrest, List.getElem?_cons_succ, ← List.head?_eq_getElem?] at hsecond
    rw [readAll?_of_rest hrest, if_neg (by decide), if_pos rfl, if_pos hsecond]
  | slash hpeek hsecond _ ih =>
    obtain ⟨rest, hrest⟩ := List.head?_eq_some_iff.1 hpeek
    rw [Cursor.peekAt?, hrest, List.getElem?_cons_succ, ← List.head?_eq_getElem?] at hsecond
    rw [readAll?_of_rest hrest, if_neg (by decide), if_pos rfl, if_neg hsecond, ih]
  | next hpeek hgreater hslash hread _ ih =>
    obtain ⟨rest, hrest⟩ := List.head?_eq_some_iff.1 hpeek
    rw [readAll?_of_rest hrest, if_neg hgreater, if_neg hslash, hread]
    simp [ih]

/-- The white space in front of the attributes is skipped first, and the end of the tag comes
behind it. -/
theorem Reads.skipSpace_pos_lt {as : List Attribute} {s : Bool} (hreads : Reads c as s d) :
    (c.skipWhile isSpace).pos < d.pos := by
  cases hreads with
  | greater _ => exact Nat.lt_succ_self _
  | close _ _ => exact Nat.lt_add_of_pos_right (by decide)
  | slash _ _ hrest => exact (reaches_of_readAll (readAll_of_reads hrest)).1.pos_le
  | next hpeek _ _ hread hrest =>
    have h1 := (reaches_of_read (Cursor.rest_ne_nil hpeek) hread).1.pos_le
    have h2 := (reaches_of_readAll (readAll_of_reads hrest)).2.1
    omega

theorem Reads.of_twins {as : List Attribute} {s : Bool} (hreads : Reads c as s c')
    (h : k.Twins c d) (hle : c'.pos ≤ k.stop) :
    ∃ d', Reads d (as.map (·.moved k)) s d' ∧ k.Twins c' d' := by
  have hpos := hreads.skipSpace_pos_lt
  induction hreads generalizing d with
  | @greater c hpeek =>
    obtain ⟨h1, -⟩ := h.skipWhile isSpace (by omega)
    exact ⟨_, .greater ((h1.peek? hle).trans hpeek), h1.advance hle⟩
  | @close c hpeek hsecond =>
    have hroom : (c.skipWhile isSpace).pos + 2 ≤ k.stop := hle
    obtain ⟨h1, -⟩ := h.skipWhile isSpace (by omega)
    refine ⟨_, .close ((h1.peek? (by omega)).trans hpeek) ?_, h1.advance hle⟩
    exact (h1.getElem? hroom).trans hsecond
  | @slash c stop as s hpeek hsecond hrest ih =>
    obtain ⟨h1, -⟩ := h.skipWhile isSpace (by omega)
    have hnext := (reaches_of_readAll (readAll_of_reads hrest)).2.1
    have hroom : (c.skipWhile isSpace).pos + 1 < k.stop := Nat.lt_of_lt_of_le hnext hle
    obtain ⟨d', hd, htwins⟩ := ih (h1.advance (Nat.le_of_lt hroom)) hle hrest.skipSpace_pos_lt
    refine ⟨d', .slash ((h1.peek? (by omega)).trans hpeek) ?_ hd, htwins⟩
    rwa [Cursor.peekAt?, h1.getElem? hroom]
  | @next c after stop a as s b hpeek hgreater hslash hread hrest ih =>
    obtain ⟨h1, -⟩ := h.skipWhile isSpace (by omega)
    have hbehind := hrest.skipSpace_pos_lt
    obtain ⟨after', hread', h2⟩ := read_of_twins h1 hread (Cursor.rest_ne_nil hpeek) (by omega)
    obtain ⟨d', hd, htwins⟩ := ih h2 hle hbehind
    exact ⟨d', .next ((h1.peek? (by omega)).trans hpeek) hgreater hslash hread' hd, htwins⟩

theorem readAll_of_twins (h : k.Twins c d) {as : List Attribute} {s : Bool}
    (hread : readAll? c = some (as, s, c')) (hle : c'.pos ≤ k.stop) :
    ∃ d', readAll? d = some (as.map (·.moved k), s, d') ∧ k.Twins c' d' := by
  obtain ⟨d', hd, htwins⟩ := (reads_of_readAll hread).of_twins h hle
  exact ⟨d', readAll_of_reads hd, htwins⟩

end Attribute

/-! ## Tokens -/

namespace Token

variable {k : TwoPlaces} {c c' d : Cursor} {t : Token}

theorem four_le_readComment (c : Cursor) : c.pos + 4 ≤ (readComment c).2.pos := by
  have hskip := (Cursor.reaches_skipUntil ([hyphen, hyphen, greater].isPrefixOf ·)
    (c.advance 4)).pos_le
  unfold readComment
  simp only
  split
  · exact hskip
  · exact Nat.le_trans hskip (Nat.le_add_right _ 3)

/-- A comment that ends inside the run. -/
theorem readComment_of_twins (h : k.Twins c d) (hlen : 4 ≤ c.rest.length)
    (hlt : (readComment c).2.pos < k.stop) :
    (readComment d).1 = (readComment c).1.moved k ∧
      k.Twins (readComment c).2 (readComment d).2 := by
  have hfour := Cursor.reaches_advance hlen
  have hskip := Cursor.reaches_skipUntil ([hyphen, hyphen, greater].isPrefixOf ·) (c.advance 4)
  unfold readComment at hlt ⊢
  simp only at hlt ⊢
  by_cases hend : ((c.advance 4).skipUntil ([hyphen, hyphen, greater].isPrefixOf ·)).atEnd = true
  · -- a comment without its end goes beyond the run
    rw [if_pos hend] at hlt
    have hstop := (hfour.trans hskip).stop_eq
    have hle := h.stop_le
    rw [Cursor.atEnd, List.isEmpty_iff] at hend
    rw [← hstop, Cursor.stop, hend, List.length_nil] at hle
    omega
  · rw [if_neg hend] at hlt ⊢
    have hclose : ((c.advance 4).skipUntil ([hyphen, hyphen, greater].isPrefixOf ·)).pos + 3 <
        k.stop := hlt
    have hroom := Nat.le_trans (Nat.le_add_right _ 3) (Nat.le_of_lt hclose)
    obtain ⟨h1, -⟩ := (h.advance (Nat.le_trans hskip.pos_le hroom)).skipUntil
      ([hyphen, hyphen, greater].isPrefixOf ·) (by omega) (by
        intro e f hef _ hle
        refine hef.isPrefixOf [hyphen, hyphen, greater] ?_
        show e.pos + 3 ≤ k.stop
        omega)
    have h2 := h1.advance (n := 3) (Nat.le_of_lt hclose)
    rw [(h1.atEnd (by omega)).2, if_neg Bool.false_ne_true, h.spanTo h2]
    exact ⟨rfl, h2⟩

theorem readDeclaration_of_twins (h : k.Twins c d) (hread : readDeclaration? c = some (t, c'))
    (hle : c'.pos ≤ k.stop) :
    ∃ d', readDeclaration? d = some (t.moved k, d') ∧ k.Twins c' d' := by
  unfold readDeclaration? at hread ⊢
  simp only at hread ⊢
  split at hread
  · cases hread
  · cases hread
    have hlt : (c.skipWhile (· != greater)).pos < k.stop := hle
    obtain ⟨h1, -⟩ := h.skipWhile (· != greater) hlt
    have h2 := h1.advance (n := 1) hle
    refine ⟨_, ?_, h2⟩
    rw [(h1.atEnd hlt).2, h.spanTo h2]
    rfl

theorem two_lt_of_readFinish (hread : readFinish? c = some (t, c')) : c.pos + 2 < c'.pos := by
  unfold readFinish? at hread
  simp only at hread
  split at hread
  · cases hread
  · cases hread
    have hname := Cursor.reaches_skipWhile isElementNameByte (c.advance 2)
    exact Nat.lt_succ_of_le (hname.trans (Cursor.reaches_skipWhile (· != greater) _)).pos_le

theorem readFinish_of_twins (h : k.Twins c d) (hread : readFinish? c = some (t, c'))
    (hle : c'.pos ≤ k.stop) : ∃ d', readFinish? d = some (t.moved k, d') ∧ k.Twins c' d' := by
  unfold readFinish? at hread ⊢
  simp only at hread ⊢
  split at hread
  · cases hread
  · cases hread
    have hlast := Cursor.reaches_skipWhile (· != greater)
      ((c.advance 2).skipWhile isElementNameByte)
    have hname := Cursor.reaches_skipWhile isElementNameByte (c.advance 2)
    have hlt : (((c.advance 2).skipWhile isElementNameByte).skipWhile (· != greater)).pos <
        k.stop := hle
    have hnamePos := Nat.lt_of_le_of_lt hlast.pos_le hlt
    have hroom : c.pos + 2 ≤ k.stop := Nat.le_trans hname.pos_le (Nat.le_of_lt hnamePos)
    obtain ⟨h1, htake⟩ := (h.advance hroom).skipWhile isElementNameByte hnamePos
    obtain ⟨h2, -⟩ := h1.skipWhile (· != greater) hlt
    have h3 := h2.advance (n := 1) hle
    refine ⟨_, ?_, h3⟩
    rw [(h2.atEnd hlt).2, htake, h.spanTo h3]
    rfl

theorem one_lt_of_readStart (hread : readStart? c = some (t, c')) : c.pos + 1 < c'.pos := by
  unfold readStart? at hread
  obtain ⟨⟨as, s, after⟩, has, he⟩ := Option.map_eq_some_iff.1 hread
  cases he
  have hname := Cursor.reaches_skipWhile isElementNameByte (c.advance 1)
  exact Nat.lt_of_le_of_lt hname.pos_le (Attribute.reaches_of_readAll has).2.1

theorem readStart_of_twins (h : k.Twins c d) (hread : readStart? c = some (t, c'))
    (hle : c'.pos ≤ k.stop) : ∃ d', readStart? d = some (t.moved k, d') ∧ k.Twins c' d' := by
  unfold readStart? at hread ⊢
  obtain ⟨⟨as, s, after⟩, has, he⟩ := Option.map_eq_some_iff.1 hread
  cases he
  have hafter := (Attribute.reaches_of_readAll has).2.1
  have hname := Cursor.reaches_skipWhile isElementNameByte (c.advance 1)
  have hnamePos : ((c.advance 1).skipWhile isElementNameByte).pos < k.stop :=
    Nat.lt_of_lt_of_le hafter hle
  have hroom : c.pos + 1 ≤ k.stop := Nat.le_trans hname.pos_le (Nat.le_of_lt hnamePos)
  obtain ⟨h1, htake⟩ := (h.advance hroom).skipWhile isElementNameByte hnamePos
  obtain ⟨d', hd, h2⟩ := Attribute.readAll_of_twins h1 has hle
  refine ⟨d', ?_, h2⟩
  rw [hd, htake, Option.map_some]
  simp only [h.spanTo h2]
  rfl

/-- Bytes other than `>` at the start of a declaration are in front of its end. -/
theorem add_lt_of_readDeclaration {run rest : Text} (hrest : c.rest = run ++ rest)
    (hrun : ∀ b ∈ run, (b != greater) = true) (hread : readDeclaration? c = some (t, c')) :
    c.pos + run.length < c'.pos := by
  unfold readDeclaration? at hread
  simp only at hread
  split at hread
  · cases hread
  · cases hread
    show c.pos + run.length < c.pos + (c.rest.takeWhile (· != greater)).length + 1
    rw [hrest, List.takeWhile_append_of_pos hrun, List.length_append]
    omega

/-- The first bytes of a token, as far as they lie in the run. -/
theorem rest_of_twins (h : k.Twins c d) {first second : UInt8} {rest : Text}
    (hrest : c.rest = first :: second :: rest) (hle : c.pos + 2 ≤ k.stop) :
    ∃ rest', d.rest = first :: second :: rest' ∧
      (c.pos + 3 ≤ k.stop → rest'.head? = rest.head?) ∧
      (c.pos + 4 ≤ k.stop →
        [hyphen, hyphen].isPrefixOf rest' = [hyphen, hyphen].isPrefixOf rest) := by
  have hfront : d.rest.take 2 = [first, second] := by rw [h.rest_take hle, hrest]; rfl
  have hsplit : d.rest = first :: second :: d.rest.drop 2 :=
    (List.take_append_drop 2 d.rest).symm.trans (by rw [hfront]; rfl)
  have hdrop : c.rest.drop 2 = rest := by rw [hrest]; rfl
  refine ⟨d.rest.drop 2, hsplit, ?_, ?_⟩
  · intro hthree
    rw [← hdrop, List.head?_drop, List.head?_drop]
    exact h.getElem? hthree
  · intro hfour
    rw [← hdrop]
    exact (h.advance hle).isPrefixOf [hyphen, hyphen] hfour

/-- How a token goes on is decided by the byte behind the `<`, and for a comment by the two bytes
behind that. -/
theorem read?_of_less {second : UInt8} {rest : Text} (hrest : c.rest = less :: second :: rest) :
    read? c =
      if second = bang && [hyphen, hyphen].isPrefixOf rest then some (readComment c)
      else if second = bang || second = question then readDeclaration? c
      else if second = slash && rest.head?.any isLetter then readFinish? c
      else if isLetter second then readStart? c
      else none := by
  rw [read?, hrest]
  rfl

theorem rest_of_read (hread : read? c = some (t, c')) :
    ∃ second rest, c.rest = less :: second :: rest := by
  unfold read? at hread
  split at hread
  · rename_i first second rest hrest
    by_cases hfirst : first = less
    · exact ⟨second, rest, hfirst ▸ hrest⟩
    · rw [if_pos (by simpa using hfirst)] at hread
      cases hread
  · cases hread

/-- A declaration at one place is no comment at the other.  A dash behind the `<!` at one place is
one at the other, since it does not end the declaration. -/
theorem not_comment_of_readDeclaration (h : k.Twins c d) {second : UInt8} {rest rest' : Text}
    (hrest : c.rest = less :: second :: rest) (hrest' : d.rest = less :: second :: rest')
    (hcomment : ¬ (second = bang && [hyphen, hyphen].isPrefixOf rest) = true)
    (hsecond : (second != greater) = true) (hread : readDeclaration? c = some (t, c'))
    (hle : c'.pos ≤ k.stop) :
    ¬ (second = bang && [hyphen, hyphen].isPrefixOf rest') = true := by
  intro hc
  obtain ⟨hbang, hprefix⟩ := Bool.and_eq_true_iff.1 hc
  obtain ⟨more, hmore⟩ := List.isPrefixOf_iff_prefix.1 hprefix
  have hpos : c.pos + 2 < c'.pos :=
    add_lt_of_readDeclaration (show c.rest = [less, second] ++ rest from hrest)
      (List.forall_mem_cons.2 ⟨by decide, List.forall_mem_singleton.2 hsecond⟩) hread
  obtain ⟨front, hfront, hthird, hdashes⟩ := rest_of_twins h hrest (by omega)
  have hsame : rest' = front := by
    rw [hrest'] at hfront
    simpa using hfront
  subst hsame
  have hhead : rest.head? = some hyphen := by
    rw [← hthird (by omega), ← hmore]
    rfl
  obtain ⟨tail, rfl⟩ := List.head?_eq_some_iff.1 hhead
  have hfour : c.pos + 3 < c'.pos :=
    add_lt_of_readDeclaration (show c.rest = [less, second, hyphen] ++ tail from hrest)
      (List.forall_mem_cons.2 ⟨by decide, List.forall_mem_cons.2
        ⟨hsecond, List.forall_mem_singleton.2 (by decide)⟩⟩) hread
  rw [hdashes (by omega)] at hc
  exact hcomment hc

/-- **A token at two places.**  A token that ends inside the run is read at the other place as well.
It is the same token if the run goes on behind it; only a comment that is never ended may differ. -/
theorem read_of_twins (h : k.Twins c d) (hread : read? c = some (t, c')) (hle : c'.pos ≤ k.stop) :
    ∃ t' d', read? d = some (t', d') ∧ (c'.pos < k.stop → t' = t.moved k ∧ k.Twins c' d') := by
  obtain ⟨second, rest, hrest⟩ := rest_of_read hread
  rw [read?_of_less hrest] at hread
  split at hread
  · rename_i hcomment
    cases hread
    have hfour := Nat.le_trans (four_le_readComment c) hle
    obtain ⟨rest', hrest', -, hdashes⟩ := rest_of_twins h hrest (by omega)
    have hlen := (List.isPrefixOf_iff_prefix.1 (Bool.and_eq_true_iff.1 hcomment).2).length_le
    refine ⟨(readComment d).1, (readComment d).2, ?_, ?_⟩
    · rw [read?_of_less hrest', hdashes hfour, if_pos hcomment]
    · intro hlt
      refine readComment_of_twins h ?_ hlt
      rw [hrest]
      simp only [List.length_cons, List.length_nil] at hlen ⊢
      omega
  · rename_i hcomment
    split at hread
    · rename_i hdeclaration
      have hsecond : (second != greater) = true := by
        rcases Bool.or_eq_true_iff.1 hdeclaration with hs | hs <;>
          rw [of_decide_eq_true hs] <;> decide
      have hpos : c.pos + 1 < c'.pos :=
        add_lt_of_readDeclaration (show c.rest = [less] ++ second :: rest from hrest)
          (List.forall_mem_singleton.2 (by decide)) hread
      obtain ⟨rest', hrest', -, -⟩ := rest_of_twins h hrest (by omega)
      have hcomment' :=
        not_comment_of_readDeclaration h hrest hrest' hcomment hsecond hread hle
      obtain ⟨d', hd, htwins⟩ := readDeclaration_of_twins h hread hle
      refine ⟨_, d', ?_, fun _ => ⟨rfl, htwins⟩⟩
      rw [read?_of_less hrest', if_neg hcomment', if_pos hdeclaration, hd]
    · rename_i hdeclaration
      have hcomment' : ∀ rest', ¬ (second = bang && [hyphen, hyphen].isPrefixOf rest') = true := by
        intro rest' hc
        have hbang : second = bang := of_decide_eq_true (Bool.and_eq_true_iff.1 hc).1
        subst hbang
        exact hdeclaration rfl
      split at hread
      · rename_i hfinish
        have hpos := two_lt_of_readFinish hread
        obtain ⟨rest', hrest', hthird, -⟩ := rest_of_twins h hrest (by omega)
        obtain ⟨d', hd, htwins⟩ := readFinish_of_twins h hread hle
        refine ⟨_, d', ?_, fun _ => ⟨rfl, htwins⟩⟩
        rw [read?_of_less hrest', if_neg (hcomment' rest'), if_neg hdeclaration,
          hthird (by omega), if_pos hfinish, hd]
      · rename_i hfinish
        split at hread
        · rename_i hletter
          have hpos := one_lt_of_readStart hread
          obtain ⟨rest', hrest', -, -⟩ := rest_of_twins h hrest (by omega)
          obtain ⟨d', hd, htwins⟩ := readStart_of_twins h hread hle
          have hslash : ¬ (second = slash && rest'.head?.any isLetter) = true := by
            intro hs
            rw [of_decide_eq_true (Bool.and_eq_true_iff.1 hs).1] at hletter
            exact absurd hletter (by decide)
          refine ⟨_, d', ?_, fun _ => ⟨rfl, htwins⟩⟩
          rw [read?_of_less hrest', if_neg (hcomment' rest'), if_neg hdeclaration, if_neg hslash,
            if_pos hletter, hd]
        · cases hread

/-- A token with room behind it is the same at the other place. -/
theorem read_inside_of_twins (h : k.Twins c d) (hread : read? c = some (t, c'))
    (hlt : c'.pos < k.stop) : ∃ d', read? d = some (t.moved k, d') ∧ k.Twins c' d' := by
  obtain ⟨t', d', hread', hsame⟩ := read_of_twins h hread (Nat.le_of_lt hlt)
  obtain ⟨rfl, htwins⟩ := hsame hlt
  exact ⟨d', hread', htwins⟩

end Token

end Shortcode
