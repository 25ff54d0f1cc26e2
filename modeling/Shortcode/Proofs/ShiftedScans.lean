import Shortcode.Proofs.PassTwins
import Shortcode.Proofs.Shifting
import Shortcode.Proofs.Untouched

/-!
# Scans behind other text

With more text in front, a part of a document lies further on but reads the same.  If that text
holds neither a `[` nor a `<` the pass only steps over it, so what a scan finds is what it finds
without that text, so many bytes further on.  Contexts keep the numbers of their regions.

    p.Inert → Scan.tags (p ++ source) = (Scan.tags source).map (·.shifted p.length)    (tags_append)
-/

namespace Shortcode

open Byte

/-- Text without a `[` and without a `<`. -/
structure Text.Inert (p : Text) : Prop where
  leftBracket_notMem : leftBracket ∉ p
  less_notMem : less ∉ p

theorem Text.inert_nil : Text.Inert [] := ⟨List.not_mem_nil, List.not_mem_nil⟩

/-- The text behind another one, from an offset on. -/
theorem Text.drop_append_add (p source : Text) (k : Nat) :
    (p ++ source).drop (k + p.length) = source.drop k := by
  rw [Nat.add_comm, List.drop_length_add_append]

@[simp] theorem Span.slice_shifted (p source : Text) (s : Span) :
    (s.shifted p.length).slice (p ++ source) = s.slice source := by
  rw [slice, slice, length_shifted, shifted_start, Text.drop_append_add]

theorem Cursor.Reaches.shifted {c d : Cursor} (h : c.Reaches d) (n : Nat) :
    (c.shifted n).Reaches (d.shifted n) := by
  obtain ⟨k, hk, rfl⟩ := h
  exact ⟨k, hk, (c.advance_shifted n k).symm⟩

/-! ## Regions -/

namespace Scan

/-- What a text without markup holds from a byte on. -/
theorem brackets_of_rest {context : Context} {c : Cursor} {b : UInt8} {rest : Text}
    (hrest : c.rest = b :: rest) : brackets context c =
      if b = leftBracket then
        match Bracket.read? context c with
        | some (tag, after) => tag :: brackets context after
        | none => brackets context (c.advance 1)
      else brackets context (c.advance 1) := by
  rw [brackets]
  split
  · rename_i hnil
    cases hnil.symm.trans hrest
  · rename_i hcons
    cases hcons.symm.trans hrest
    split
    · split
      · rename_i hread
        simp only [hread]
      · rename_i hread
        simp only [hread]
    · rfl

theorem brackets_shifted (n : Nat) (context : Context) (c : Cursor) :
    brackets context (c.shifted n) = (brackets context c).map (·.shifted n) := by
  induction hlen : c.rest.length using Nat.strongRecOn generalizing c with
  | _ len ih =>
    subst hlen
    cases hrest : c.rest with
    | nil =>
      have hnot : leftBracket ∉ c.rest := by simp [hrest]
      rw [brackets_eq_nil hnot, brackets_eq_nil (c := c.shifted n) hnot, List.map_nil]
    | cons b rest =>
      have hnext := ih _ (Cursor.length_advance_lt (by decide : 0 < 1) (by simp [hrest]))
        (c.advance 1) rfl
      rw [brackets_of_rest hrest, brackets_of_rest (c := c.shifted n) hrest,
        Cursor.advance_shifted, hnext, Bracket.read?_shifted]
      split
      · cases hread : Bracket.read? context c with
        | none => rfl
        | some found =>
          exact congrArg _ (ih _ (Bracket.length_read_lt hread) _ rfl)
      · rfl

end Scan

namespace Region

def shifted (n : Nat) (r : Region) : Region := { r with span := r.span.shifted n }

variable (p source element : Text) (n : Nat)

theorem brackets_shifted (r : Region) : (r.shifted p.length).brackets (p ++ source) =
    (r.brackets source).map (·.shifted p.length) := by
  unfold brackets shifted
  rw [Span.slice_shifted]
  exact Scan.brackets_shifted p.length r.context (.ofText (r.span.slice source) r.span.start)

theorem ofAttributes_shifted (as : List Attribute) :
    ofAttributes (p ++ source) element n (as.map (·.shifted p.length)) =
      (ofAttributes source element n as).map (·.shifted p.length) := by
  induction as generalizing n with
  | nil => rfl
  | cons a rest ih =>
    rw [List.map_cons, ofAttributes, ofAttributes, Attribute.shifted]
    cases a.value with
    | none => exact ih n
    | some v =>
      simp only [Option.map_some, Span.slice_shifted]
      split
      · exact congrArg (_ :: ·) (ih (n + 1))
      · exact ih n

theorem rawText_shifted (pos : Nat) : rawText (p ++ source) element (pos + p.length) =
    (rawText source element pos).shifted p.length := by
  unfold rawText
  rw [Text.drop_append_add]
  exact congrArg (Span.mk _) (Nat.add_right_comm ..)

theorem ofToken_shifted (t : Token) : ofToken (p ++ source) n (t.shifted p.length) =
    (ofToken source n t).map (·.shifted p.length) := by
  cases t with
  | finish name span => rfl
  | opaqueText span => rfl
  | start tag =>
    have hraw : (tag.shifted p.length).rawText? = tag.rawText? := rfl
    have hvalues : ofAttributes (p ++ source) (tag.shifted p.length).name n
        (tag.shifted p.length).attributes = _ :=
      ofAttributes_shifted p source tag.name n tag.attributes
    have hstop : (tag.shifted p.length).span.stop = tag.span.stop + p.length := rfl
    simp only [ofToken, Token.shifted, hraw, hvalues, hstop, rawText_shifted, List.length_map]
    cases tag.rawText? with
    | none => rfl
    | some element =>
      rw [List.map_append]
      rfl

end Region

/-! ## The pass -/

theorem Token.extent_shifted (p source : Text) (t : Token) :
    (t.shifted p.length).extent (p ++ source) = (t.extent source).shifted p.length := by
  cases t with
  | finish name span => rfl
  | opaqueText span => rfl
  | start tag =>
    have hraw : (tag.shifted p.length).rawText? = tag.rawText? := rfl
    simp only [extent, shifted, hraw]
    cases tag.rawText? with
    | none => rfl
    | some element =>
      show Span.mk (tag.span.start + p.length)
        (Region.rawText (p ++ source) element (tag.span.stop + p.length)).stop = _
      rw [Region.rawText_shifted]
      rfl

namespace Piece

def shifted (n : Nat) : Piece → Piece
  | .bracket b => .bracket (b.shifted n)
  | .token t => .token (t.shifted n)

theorem filterMap_bracket?_shifted (n : Nat) (items : List Piece) :
    (items.map (·.shifted n)).filterMap bracket? =
      (items.filterMap bracket?).map (·.shifted n) := by
  rw [List.filterMap_map, List.map_filterMap]
  exact congrArg (List.filterMap · items) (funext fun item => by cases item <;> rfl)

theorem filterMap_token?_shifted (n : Nat) (items : List Piece) :
    (items.map (·.shifted n)).filterMap token? = (items.filterMap token?).map (·.shifted n) := by
  rw [List.filterMap_map, List.map_filterMap]
  exact congrArg (List.filterMap · items) (funext fun item => by cases item <;> rfl)

theorem expand_shifted (p source : Text) (n : Nat) (items : List Piece) :
    expand (p ++ source) n (items.map (·.shifted p.length)) =
      (expand source n items).map (·.shifted p.length) := by
  induction items generalizing n with
  | nil => rfl
  | cons item rest ih =>
    cases item with
    | bracket b => exact congrArg (_ :: ·) (ih n)
    | token t =>
      have hregions : ((Region.ofToken source n t).map (·.shifted p.length)).flatMap
          (·.brackets (p ++ source)) =
          ((Region.ofToken source n t).flatMap (·.brackets source)).map (·.shifted p.length) := by
        rw [List.flatMap_map, List.map_flatMap]
        exact List.flatMap_congr fun r _ => r.brackets_shifted p source
      rw [List.map_cons, shifted, expand, expand, Region.ofToken_shifted, hregions,
        List.length_map, ih, List.map_cons, List.map_append, List.map_map, List.map_map]
      rfl

end Piece

namespace Pass

variable {p source : Text} {c : Cursor} {items : List Piece}

/-- Behind other text the pass goes the same way. -/
theorem shifted (p : Text) (h : Pass source c items) :
    Pass (p ++ source) (c.shifted p.length) (items.map (·.shifted p.length)) := by
  induction h with
  | done hnil => exact .done hnil
  | @skip c items hne hbracket htoken _ ih =>
    refine .skip hne (fun hpeek => ?_) ?_ ?_
    · rw [Bracket.read?_shifted, hbracket hpeek, Option.map_none]
    · rw [Token.read?_shifted, htoken, Option.map_none]
    · rw [Cursor.advance_shifted]
      exact ih
  | @bracket c d b items hpeek hread _ ih =>
    refine .bracket (d := d.shifted p.length) hpeek ?_ ih
    rw [Bracket.read?_shifted, hread]
    rfl
  | @token c d e t items hread hde hpos _ ih =>
    refine .token (d := d.shifted p.length) ?_ (hde.shifted p.length) ?_ ih
    · rw [Token.read?_shifted, hread]
      rfl
    · rw [Token.extent_shifted, Cursor.shifted_pos, hpos, Span.shifted_stop]

/-- The pass steps over inert text. -/
theorem step_over (hp : p.Inert) {text rest : Text} {pos : Nat}
    (h : Pass text ⟨pos + p.length, rest⟩ items) : Pass text ⟨pos, p ++ rest⟩ items := by
  induction p generalizing pos with
  | nil => exact h
  | cons b p ih =>
    obtain ⟨hbracket, hless⟩ := hp
    rw [List.mem_cons, not_or] at hbracket hless
    have hfirst : (Cursor.mk pos (b :: p ++ rest)).peek? = some b := rfl
    have hnext : Pass text ⟨pos + 1 + p.length, rest⟩ items := by
      rwa [List.length_cons, Nat.add_comm p.length, ← Nat.add_assoc] at h
    refine .skip (List.cons_ne_nil _ _) ?_ ?_ (ih ⟨hbracket.2, hless.2⟩ hnext)
    · intro hpeek
      exact absurd (Option.some.inj hpeek).symm hbracket.1
    · refine Token.read_eq_none ?_
      rw [hfirst]
      exact fun he => hless.1 (Option.some.inj he).symm

end Pass

namespace Scan

variable {p : Text} (hp : p.Inert) (source : Text)

include hp

theorem pieces_append : pieces 0 (.ofText (p ++ source) 0) =
    (pieces 0 (.ofText source 0)).map (·.shifted p.length) := by
  obtain ⟨items, hpass, hpieces⟩ := exists_pass (Cursor.over_ofText source) 0
  have hpass' : Pass (p ++ source) (.ofText (p ++ source) 0) (items.map (·.shifted p.length)) :=
    .step_over hp (hpass.shifted p)
  rw [pieces_of_pass hpass' (Cursor.over_ofText _), Piece.expand_shifted, hpieces]

theorem tags_append : tags (p ++ source) = (tags source).map (·.shifted p.length) := by
  rw [tags, pieces_append hp, Piece.filterMap_bracket?_shifted, tags]

/-- Inert text in front shifts the markup. -/
theorem tokens_append : tokens (p ++ source) = (tokens source).map (·.shifted p.length) := by
  rw [tokens, pieces_append hp, Piece.filterMap_token?_shifted, tokens]

end Scan

/-! ## Pairing -/

namespace Occurrence

/-- The occurrence `n` bytes further on, with what it encloses. -/
def shifted (n : Nat) (o : Occurrence) : Occurrence :=
  { o with span := o.span.shifted n, content := o.content.map (·.shifted n) }

/-- The doubled bracket that is taken in stands behind the text in front. -/
theorem widen_shifted (n : Nat) (span : Span) {escaped : Bool}
    (hroom : escaped.toNat ≤ span.start) :
    widen (span.shifted n) escaped = (widen span escaped).shifted n := by
  cases escaped with
  | false => rfl
  | true => exact congrArg₂ Span.mk (Nat.sub_add_comm hroom) (Nat.add_right_comm ..)

theorem alone_shifted (n : Nat) {b : Bracket} (hb : b.Proper) (arguments : Arguments)
    (form : Form) : alone (b.shifted n) arguments form = (alone b arguments form).shifted n := by
  have hroom : b.isEscape.toNat ≤ b.span.start :=
    hb.toNat_le fun h => (Bool.and_eq_true_iff.1 h).1
  exact congrArg (fun span => Occurrence.mk b.name arguments none form span b.isEscape b.context)
    (widen_shifted n b.span hroom)

theorem between_shifted (n : Nat) {opener : Bracket} (hopener : opener.Proper) (close : Bracket)
    (arguments : Arguments) : between (opener.shifted n) (close.shifted n) arguments =
      (between opener close arguments).shifted n := by
  have hroom : (opener.lead && close.trail).toNat ≤ opener.span.start :=
    hopener.toNat_le fun h => (Bool.and_eq_true_iff.1 h).1
  exact congrArg (fun span => Occurrence.mk opener.name arguments
      (some ⟨opener.span.stop + n, close.span.start + n⟩) .enclosing span
      (opener.lead && close.trail) opener.context)
    (widen_shifted n ⟨opener.span.start, close.span.stop⟩ hroom)

theorem findClose?_shifted (n : Nat) (opener : Bracket) (bs : List Bracket) :
    findClose? (opener.shifted n) (bs.map (·.shifted n)) =
      (findClose? opener bs).map (Prod.map (·.shifted n) (List.map (·.shifted n))) := by
  induction bs with
  | nil => rfl
  | cons b rest ih =>
    have hcloses : (b.shifted n).closes (opener.shifted n) = b.closes opener := rfl
    rw [List.map_cons, findClose?, findClose?, hcloses]
    split
    · rfl
    · exact ih

/-- What an open tag becomes. -/
theorem ofBrackets_of_opener {pairs : Text → Bool} {b : Bracket} {arguments : Arguments}
    (h : b.IsOpener arguments) (rest : List Bracket) : ofBrackets pairs (b :: rest) =
      match findClose? b rest with
      | none => alone b arguments .opening :: ofBrackets pairs rest
      | some (close, after) =>
        if (b.lead && close.trail) || pairs b.name then
          between b close arguments :: ofBrackets pairs after
        else alone b arguments .opening :: ofBrackets pairs rest := by
  obtain ⟨hkind, hescape⟩ := h
  rw [ofBrackets, hkind]
  simp only [hescape, Bool.false_eq_true, if_false]
  split
  · rename_i hfind
    rw [hfind]
  · rename_i hfind
    rw [hfind]

theorem ofBrackets_shifted (pairs : Text → Bool) (n : Nat) {bs : List Bracket}
    (hbs : ∀ b ∈ bs, b.Proper) :
    ofBrackets pairs (bs.map (·.shifted n)) = (ofBrackets pairs bs).map (·.shifted n) := by
  induction hlen : bs.length using Nat.strongRecOn generalizing bs with
  | _ len ih =>
    subst hlen
    cases bs with
    | nil => rw [List.map_nil, ofBrackets, List.map_nil]
    | cons b rest =>
      obtain ⟨hb, hrest⟩ := List.forall_mem_cons.1 hbs
      have hlater := ih _ (Nat.lt_succ_self _) hrest rfl
      rw [List.map_cons]
      by_cases hopener : ∃ arguments, b.IsOpener arguments
      · obtain ⟨arguments, hopener⟩ := hopener
        have hopener' : (b.shifted n).IsOpener arguments := hopener
        rw [ofBrackets_of_opener hopener, ofBrackets_of_opener hopener', findClose?_shifted]
        cases hfind : findClose? b rest with
        | none => simp only [Option.map_none, hlater, alone_shifted n hb, List.map_cons]
        | some found =>
          obtain ⟨close, after⟩ := found
          obtain ⟨mid, rfl, -, -⟩ := findClose?_eq_some hfind
          have hafter := ih after.length (Nat.lt_succ_of_lt (length_findClose_lt hfind))
            (fun c hc => hrest c (List.mem_append_right _ (List.mem_cons_of_mem _ hc))) rfl
          simp only [Option.map_some, Prod.map_apply, hlater, hafter, alone_shifted n hb,
            between_shifted n hb]
          show (if (b.lead && close.trail || pairs b.name) = true then _ else _) = _
          split <;> rfl
      · -- any other tag stands alone, whatever follows it
        have hkind : (b.shifted n).kind = b.kind := rfl
        have hescape : (b.shifted n).isEscape = b.isEscape := rfl
        rw [ofBrackets, ofBrackets, hkind, hescape]
        cases hk : b.kind with
        | closing => simp only [hlater, alone_shifted n hb, List.map_cons]
        | opening arguments selfClosing =>
          simp only [hlater, alone_shifted n hb]
          split
          · rfl
          · rename_i hself
            split
            · rfl
            · rename_i hesc
              refine absurd ⟨arguments, ?_, Bool.eq_false_iff.2 hesc⟩ hopener
              rw [hk, Bool.eq_false_iff.2 hself]

end Occurrence

/-- **Inert text in front shifts the tags**, however they are paired. -/
theorem Scan.occurrences_append {p : Text} (hp : p.Inert) (source : Text) (pairs : Text → Bool) :
    (ofText (p ++ source) pairs).occurrences =
      (ofText source pairs).occurrences.map (·.shifted p.length) := by
  rw [occurrences_ofText, occurrences_ofText, tags_append hp,
    Occurrence.ofBrackets_shifted pairs p.length fun _ => proper_of_mem_tags]

end Shortcode
