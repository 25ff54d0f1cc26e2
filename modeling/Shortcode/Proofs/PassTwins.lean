import Shortcode.Proofs.ScanSlices
import Shortcode.Proofs.TokenTwins

/-!
# The pass at two places

Up to a tag that stands in a run of text, the pass over a document finds the same at both places of
the run (`TwoPlaces`), if nothing stands behind the run at the right one: what is read there is read
in the document too, so what is skipped in the document is skipped there.

    Pass source c (pre ++ .bracket b :: post) → k.Twins c d → b.span.stop ≤ k.stop →
      Pass alone e' items → Pass alone d (pre.map (·.moved k) ++ items)          (walk_of_twins)
-/

namespace Shortcode

open Byte

/-! ## The pass at two places -/

/-- The piece at the right place for one at the left place. -/
def Piece.moved (k : TwoPlaces) : Piece → Piece
  | .bracket b => .bracket (b.moved k)
  | .token t => .token (t.moved k)

namespace Scan

variable {k : TwoPlaces} {c d : Cursor}

theorem endsRawText_of_twins (h : k.Twins c d) {element : Text}
    (hle : c.pos + (2 + element.length) ≤ k.stop) :
    endsRawText element d.rest = endsRawText element c.rest := by
  have hlen : ([less, slash] ++ element).length = 2 + element.length := by simp; omega
  unfold endsRawText Text.startsIgnoringCase
  rw [hlen, h.rest_take hle]

/-- The raw text behind a start tag is the same if its end stands in the run too. -/
theorem behind_of_twins (h : k.Twins c d) {t : Token}
    (hroom : ∀ tag element, t = .start tag → tag.rawText? = some element →
      (behind c t).pos + (2 + element.length) ≤ k.stop) :
    k.Twins (behind c t) (behind d (t.moved k)) := by
  cases t with
  | finish name span => exact h
  | opaqueText span => exact h
  | start tag =>
    have hroom := fun element => hroom tag element rfl
    simp only [behind, Token.moved, StartTag.rawText?_moved] at hroom ⊢
    cases hraw : tag.rawText? with
    | none => exact h
    | some element =>
      have hend := hroom element hraw
      rw [hraw] at hend
      simp only at hend ⊢
      refine (h.skipUntil (endsRawText element) (by omega) ?_).1
      intro e f hef _ hle
      exact endsRawText_of_twins hef (by omega)

/-- No `[` stands in the end of a raw text. -/
theorem room_behind {t : Token} {e : Cursor} (hreach : (behind c t).Reaches e)
    (hpeek : e.peek? = some leftBracket) {tag : StartTag} {element : Text} (ht : t = .start tag)
    (hraw : tag.rawText? = some element) : (behind c t).pos + (2 + element.length) ≤ e.pos := by
  have helement := StartTag.mem_rawTextNames hraw
  obtain ⟨n, hn, rfl⟩ := hreach
  have hbehind : behind c t = c.skipUntil (endsRawText element) := by
    rw [ht, behind, hraw]
  have hne : (behind c t).rest ≠ [] := by
    intro hnil
    rw [Cursor.peek?, Cursor.advance_rest, hnil] at hpeek
    simp at hpeek
  rw [hbehind] at hne hpeek ⊢
  have hends := Text.stop_dropUntil (endsRawText element) hne
  obtain ⟨name, after, hends, hname, -⟩ := exists_of_endsRawText helement hends
  have hrest : (c.skipUntil (endsRawText element)).rest = less :: slash :: (name ++ after) := hends
  have hlen : name.length = element.length := by rw [← hname, Text.lower, List.length_map]
  have hletters : ∀ b ∈ name, isLetter b = true := fun b hb =>
    (of_isLowerLetter_lower ((rawTextNames_lower element helement).2.1 _
      (hname ▸ List.mem_map_of_mem hb))).1
  rw [Cursor.peek?, Cursor.advance_rest, List.head?_drop, hrest] at hpeek
  by_contra hlt
  have hn : n < (less :: slash :: name).length := by
    simp only [List.length_cons]
    have hpos : ((c.skipUntil (endsRawText element)).advance n).pos =
      (c.skipUntil (endsRawText element)).pos + n := rfl
    omega
  have hfront : (less :: slash :: name)[n]? = some leftBracket := by
    rwa [← List.getElem?_append_left hn]
  rcases List.mem_cons.1 (List.mem_of_getElem? hfront) with he | hmem
  · exact absurd he (by decide)
  · rcases List.mem_cons.1 hmem with he | hmem
    · exact absurd he (by decide)
    · exact absurd (hletters _ hmem) (by decide)

end Scan

/-! ## One pass for each text -/

/-- There is only one way to go over a text. -/
theorem Pass.items_eq {source : Text} {c : Cursor} {items items' : List Piece}
    (h : Pass source c items) (h' : Pass source c items') : items = items' := by
  induction h generalizing items' with
  | done hnil => exact (h'.eq_nil hnil).symm
  | skip hne hbracket htoken _ ih =>
    cases h' with
    | done hnil => exact absurd hnil hne
    | skip _ _ _ hrest => exact ih hrest
    | bracket hpeek hread _ => cases (hbracket hpeek).symm.trans hread
    | token hread _ _ _ => cases htoken.symm.trans hread
  | bracket hpeek hread _ ih =>
    have hnone : Token.read? _ = none := Token.read_eq_none (by rw [hpeek]; decide)
    cases h' with
    | done hnil => exact absurd hnil (Cursor.rest_ne_nil hpeek)
    | skip _ hbracket _ _ => cases (hbracket hpeek).symm.trans hread
    | bracket _ hread' hrest =>
      cases hread.symm.trans hread'
      rw [ih hrest]
    | token hread' _ _ _ => cases hnone.symm.trans hread'
  | token hread hde hpos _ ih =>
    cases h' with
    | done hnil =>
      rw [Token.read?, hnil] at hread
      cases hread
    | skip _ _ hnone _ => cases hnone.symm.trans hread
    | bracket hpeek _ _ =>
      have hnone : Token.read? _ = none := Token.read_eq_none (by rw [hpeek]; decide)
      cases hnone.symm.trans hread
    | token hread' hde' hpos' hrest =>
      cases hread.symm.trans hread'
      cases hde.eq_of_pos hde' (hpos.trans hpos'.symm)
      rw [ih hrest]

theorem Scan.pieces_of_pass {source : Text} {c : Cursor} {items : List Piece}
    (h : Pass source c items) (hc : c.Over source) (n : Nat) :
    pieces n c = Piece.expand source n items := by
  obtain ⟨items', hpass, hpieces⟩ := exists_pass hc n
  rw [hpieces, hpass.items_eq h]

/-! ## Inside a tag -/

namespace Pass

variable {source alone : Text} {k : TwoPlaces} {c d : Cursor}

/-- Nothing that is read at the right place goes beyond the run if nothing stands behind it. -/
theorem pos_le_of_reaches (h : k.Twins c d) (hafter : k.rightAfter = []) {e : Cursor}
    (hreach : d.Reaches e) : e.pos ≤ k.swap.stop := by
  have hstop := hreach.stop_eq
  have hle := e.pos_le_stop
  obtain ⟨i, t, hlen, -, rfl⟩ := h
  rw [hafter, List.append_nil] at hstop
  show e.pos ≤ k.right + k.length
  simp only [Cursor.stop] at hstop hle
  omega

theorem bracket_eq_none (h : k.Twins c d) (hafter : k.rightAfter = [])
    (hnone : Bracket.read? .body c = none) : Bracket.read? .body d = none := by
  cases hread : Bracket.read? .body d with
  | none => rfl
  | some found =>
    obtain ⟨b, d'⟩ := found
    have hfrom := Bracket.readFrom_of_read hread
    have hle := pos_le_of_reaches h hafter hfrom.reaches
    rw [hfrom.stop_eq] at hle
    obtain ⟨e, e', -, -, -, -, hread'⟩ := Bracket.read_of_twins h.swap hread (by omega)
    cases hnone.symm.trans hread'

theorem token_eq_none (h : k.Twins c d) (hafter : k.rightAfter = [])
    (hnone : Token.read? c = none) : Token.read? d = none := by
  cases hread : Token.read? d with
  | none => rfl
  | some found =>
    obtain ⟨t, d'⟩ := found
    have hle := pos_le_of_reaches h hafter (Token.readFrom_of_read hread).reaches
    obtain ⟨t', e, hread', -⟩ := Token.read_of_twins h.swap hread hle
    cases hnone.symm.trans hread'

/-- Where a tag of ordinary text is read, and how the pass goes on behind it. -/
theorem exists_read {pre post : List Piece} {b : Bracket}
    (hpass : Pass source c (pre ++ .bracket b :: post)) : ∃ e after, c.Reaches e ∧
      e.peek? = some leftBracket ∧ Bracket.read? .body e = some (b, after) ∧
      e.pos < b.span.stop ∧ Pass source after post := by
  generalize hitems : pre ++ .bracket b :: post = items at hpass
  induction hpass generalizing pre with
  | done _ => simp at hitems
  | skip hne _ _ _ ih =>
    obtain ⟨e, after, hreach, hrest⟩ := ih hitems
    exact ⟨e, after, (Cursor.reaches_next hne).trans hreach, hrest⟩
  | @bracket c d b' items hpeek hread hrest ih =>
    have hfrom := Bracket.readFrom_of_read hread
    cases pre with
    | nil =>
      cases hitems
      have h1 := hfrom.start_eq
      have h2 := hfrom.start_lt_stop
      exact ⟨c, d, .refl c, hpeek, hread, by omega, hrest⟩
    | cons p pre =>
      obtain ⟨e, after, hreach, hrest⟩ := ih (List.cons_eq_cons.1 hitems).2
      exact ⟨e, after, hfrom.reaches.trans hreach, hrest⟩
  | token hread hde _ _ ih =>
    cases pre with
    | nil => cases hitems
    | cons p pre =>
      obtain ⟨e, after, hreach, hrest⟩ := ih (List.cons_eq_cons.1 hitems).2
      exact ⟨e, after, ((Token.readFrom_of_read hread).reaches.trans hde).trans hreach, hrest⟩

/-- **The walk to a tag.**  Up to a tag that stands in the run the pass finds the same at both
places. -/
theorem walk_of_twins {pre post : List Piece} {b : Bracket}
    (hpass : Pass source c (pre ++ .bracket b :: post)) (hc : c.Over source) (hd : d.Over alone)
    (h : k.Twins c d) (hafter : k.rightAfter = []) (hstop : b.span.stop ≤ k.stop) :
    ∃ e e' after, k.Twins e e' ∧ e'.Over alone ∧ e.peek? = some leftBracket ∧
      Bracket.read? .body e = some (b, after) ∧ Pass source after post ∧
      ∀ items, Pass alone e' items → Pass alone d (pre.map (·.moved k) ++ items) := by
  generalize hitems : pre ++ .bracket b :: post = items at hpass
  induction hpass generalizing pre d with
  | done _ => simp at hitems
  | @skip c items hne hbracket htoken hrest ih =>
    subst hitems
    have hnext := Cursor.reaches_next hne
    obtain ⟨f, -, hreach, -, -, hf, -⟩ := exists_read hrest
    have hroom : c.pos + 1 ≤ f.pos := hreach.pos_le
    have hlt : c.pos < k.stop := by omega
    have hdne : d.rest ≠ [] := by simpa [Cursor.atEnd] using (h.atEnd hlt).2
    obtain ⟨e, e', after, htwins, hover, hpeek, hread, hpost, hbuild⟩ := ih (hnext.over hc)
      ((Cursor.reaches_next hdne).over hd) (h.advance hlt) rfl
    refine ⟨e, e', after, htwins, hover, hpeek, hread, hpost, ?_⟩
    intro items hitems
    refine .skip hdne ?_ (token_eq_none h hafter htoken) (hbuild items hitems)
    intro hfirst
    exact bracket_eq_none h hafter (hbracket ((h.peek? hlt).symm.trans hfirst))
  | @bracket c after b' items hpeek hread hrest ih =>
    have hreach := (Bracket.readFrom_of_read hread).reaches
    cases pre with
    | nil =>
      cases hitems
      exact ⟨c, d, after, h, hd, hpeek, hread, hrest, fun items hitems => hitems⟩
    | cons p pre =>
      cases hitems
      obtain ⟨f, -, hreach', -, -, hf, -⟩ := exists_read hrest
      have hafterPos := hreach'.pos_le
      have hlt := hreach.pos_le
      obtain ⟨d', hread', hnext⟩ := Bracket.read_inside_of_twins h hread (by omega)
      obtain ⟨e, e', after', htwins, hover, hpeek', hb, hpost, hbuild⟩ := ih (hreach.over hc)
        ((Bracket.readFrom_of_read hread').reaches.over hd) hnext rfl
      refine ⟨e, e', after', htwins, hover, hpeek', hb, hpost, ?_⟩
      intro items hitems
      exact .bracket ((h.peek? (by omega)).trans hpeek) hread' (hbuild items hitems)
  | @token c after e t items hread hde hpos hrest ih =>
    have hfrom := Token.readFrom_of_read hread
    have hcAfter := hfrom.reaches.over hc
    cases pre with
    | nil => cases hitems
    | cons p pre =>
      cases hitems
      -- the pass goes on behind the raw text of the token
      have hbehind : e = Scan.behind after t := by
        refine hde.eq_of_pos (Scan.reaches_behind after t) ?_
        rw [hpos, Scan.behind_pos hcAfter (congrArg Span.stop hfrom.span_eq)]
      subst hbehind
      obtain ⟨f, -, hreach, hfpeek, -, hf, -⟩ := exists_read hrest
      have hbehindPos := hreach.pos_le
      have hafterPos := hde.pos_le
      obtain ⟨d', hread', hnext⟩ := Token.read_inside_of_twins h hread (by omega)
      have hdAfter := (Token.readFrom_of_read hread').reaches.over hd
      have hmoved := Scan.behind_of_twins (t := t) hnext (by
        intro tag element htag hraw
        have hroom := Scan.room_behind hreach hfpeek htag hraw
        omega)
      have hreach' := Scan.reaches_behind d' (t.moved k)
      obtain ⟨e, e', after', htwins, hover, hpeek', hb, hpost, hbuild⟩ := ih (hde.over hcAfter)
        (hreach'.over hdAfter) hmoved rfl
      refine ⟨e, e', after', htwins, hover, hpeek', hb, hpost, ?_⟩
      intro items hitems
      exact .token hread' hreach' (Scan.behind_pos hdAfter
        (congrArg Span.stop (Token.readFrom_of_read hread').span_eq)) (hbuild items hitems)

end Pass

end Shortcode
