import Shortcode.Proofs.Locality
import Shortcode.Proofs.Reassembly
import Shortcode.Proofs.ShiftedScans
import Shortcode.Proofs.TagGrammar

/-!
# Doubled brackets

A tag is read with one more `[` in front of it and one more `]` behind it where they stand, whatever
else follows (`Bracket.read_written`).  Of a longer run of `[` only the last one is doubled in front
of a tag; the pass steps over the others.  So in `n` pairs of brackets around a tag, or around an
open tag and its close tag, the innermost pair makes an escape and the others are ordinary text.

    (Scan.ofText (inBrackets (n + 1) tag) pairs).occurrences = [Occurrence.alone …]
                                                              (exists_occurrences_inBrackets)

Every escape of a text starts with `[[` and ends with `]]` (`exists_text_of_escaped`).
-/

namespace Shortcode

open Byte

/-! ## Tags as texts -/

namespace Bracket

/-- The tag `b` is read from the text `tag`, and nothing of the text is left. -/
def ReadWhole (tag : Text) (b : Bracket) : Prop :=
  tag.head? = some leftBracket ∧
    ∃ after, readSingle? .body (.ofText tag 0) = some (b, after) ∧ after.rest = []

section

variable {tag name : Text} {kind : BracketKind} {b : Bracket}

theorem ReadWhole.written (h : ReadWhole tag b) : Written tag b.name b.kind := by
  obtain ⟨hhead, after, hread, hafter⟩ := h
  obtain ⟨rest, rfl⟩ := List.head?_eq_some_iff.1 hhead
  obtain ⟨tag, name, kind, hwritten, hrest, -, rfl⟩ := readSingle_eq_some_iff.1 hread
  rw [hafter, List.append_nil] at hrest
  rwa [hrest]

/-- A tag stands between a `[`, which is not doubled, and a `]`. -/
theorem Written.exists_inside (h : Written tag name kind) :
    ∃ inside, tag = leftBracket :: (inside ++ [rightBracket]) ∧
      inside.head? ≠ some leftBracket := by
  have hinside : ∃ inside, tag = leftBracket :: (inside ++ [rightBracket]) := by
    cases h with
    | closing _ => exact ⟨slash :: name, rfl⟩
    | @opening _ part _ _ _ _ => exact ⟨name ++ part, by rw [List.append_assoc]⟩
    | @selfClosing _ part _ _ _ =>
      exact ⟨name ++ (part ++ [slash]), by rw [List.append_assoc, List.append_assoc]; rfl⟩
  obtain ⟨inside, rfl⟩ := hinside
  refine ⟨inside, rfl, fun hhead => ?_⟩
  obtain ⟨rest, rfl⟩ := List.head?_eq_some_iff.1 hhead
  exact not_starts_of_doubled ⟨_, _, _, h, List.prefix_rfl⟩

theorem Written.isName (h : Written tag name kind) : IsName name := by
  cases h with
  | closing hname => exact hname
  | opening hname _ _ => exact hname
  | selfClosing hname _ => exact hname

theorem Written.head?_eq (h : Written tag name kind) : tag.head? = some leftBracket := by
  obtain ⟨inside, rfl, -⟩ := h.exists_inside
  rfl

/-- A written tag is read with the doubled brackets that stand around it. -/
theorem read_written (context : Context) (pos : Nat) (lead trail : Bool)
    (h : Written tag name kind) (after : Text)
    (hafter : trail = false → after.head? ≠ some rightBracket) :
    read? context ⟨pos, List.replicate lead.toNat leftBracket ++
        (tag ++ (List.replicate trail.toNat rightBracket ++ after))⟩ =
      some (⟨name, kind, ⟨pos + lead.toNat, pos + lead.toNat + tag.length⟩, lead, trail, context⟩,
        ⟨pos + lead.toNat + tag.length + trail.toNat, after⟩) := by
  have hsingle : readSingle? context ⟨pos + lead.toNat,
      tag ++ (List.replicate trail.toNat rightBracket ++ after)⟩ = _ := readSingle_of_written h
  obtain ⟨inside, rfl, hinside⟩ := h.exists_inside
  generalize htag : leftBracket :: (inside ++ [rightBracket]) = tag at *
  have hlead : ((Cursor.mk pos (List.replicate lead.toNat leftBracket ++
      (tag ++ (List.replicate trail.toNat rightBracket ++ after)))).peekAt? 1 ==
        some leftBracket) = lead := by
    subst htag
    cases lead with
    | true => rfl
    | false =>
      refine beq_false_of_ne fun hpeek => hinside ?_
      cases inside with
      | nil => cases hpeek
      | cons x inside => exact hpeek
  have htrail : (Cursor.mk (pos + lead.toNat + tag.length)
      (List.replicate trail.toNat rightBracket ++ after)).startsWith [rightBracket] = trail := by
    cases trail with
    | true => rfl
    | false =>
      refine Bool.eq_false_iff.2 fun hstarts => hafter rfl ?_
      obtain ⟨rest, hrest⟩ := List.isPrefixOf_iff_prefix.1 hstarts
      exact List.head?_eq_some_iff.2 ⟨rest, hrest.symm⟩
  have hstart : (if lead = true then (Cursor.mk pos (List.replicate lead.toNat leftBracket ++
      (tag ++ (List.replicate trail.toNat rightBracket ++ after)))).advance 1 else
        ⟨pos, List.replicate lead.toNat leftBracket ++
          (tag ++ (List.replicate trail.toNat rightBracket ++ after))⟩) =
      ⟨pos + lead.toNat, tag ++ (List.replicate trail.toNat rightBracket ++ after)⟩ := by
    cases lead <;> rfl
  simp only [read?, hlead, hstart, hsingle, htrail]
  cases trail <;> rfl

/-- At three `[` in a row no tag starts. -/
theorem read_tripled (context : Context) (pos : Nat) (rest : Text) :
    read? context ⟨pos, leftBracket :: leftBracket :: leftBracket :: rest⟩ = none :=
  read_eq_none_iff.2 ⟨not_starts_of_doubled, fun _ => not_starts_of_doubled⟩

end

end Bracket

/-! ## Runs of brackets -/

/-- The text with `n` brackets on each side. -/
def Text.inBrackets (n : Nat) (t : Text) : Text :=
  List.replicate n leftBracket ++ (t ++ List.replicate n rightBracket)

theorem Text.inert_replicate (n : Nat) : Text.Inert (List.replicate n rightBracket) := by
  constructor <;> intro hmem <;> cases List.eq_of_mem_replicate hmem

namespace Pass

variable {source : Text} {items : List Piece} {pos : Nat}

/-- In inert text the pass finds nothing. -/
theorem of_inert {t : Text} (h : t.Inert) (pos : Nat) : Pass source ⟨pos, t⟩ [] := by
  have hover : Pass source ⟨pos, t ++ []⟩ [] := .step_over h (.done rfl)
  rwa [List.append_nil] at hover

/-- In a run of `[` the pass steps over all but the last two. -/
theorem run {tail : Text} (n : Nat)
    (h : Pass source ⟨pos + n, leftBracket :: leftBracket :: tail⟩ items) :
    Pass source ⟨pos, List.replicate (n + 2) leftBracket ++ tail⟩ items := by
  induction n generalizing pos with
  | zero => exact h
  | succ n ih =>
    have hnext : Pass source ⟨pos + 1, List.replicate (n + 2) leftBracket ++ tail⟩ items :=
      ih (by rwa [Nat.add_assoc, Nat.add_comm 1 n])
    exact .skip (List.cons_ne_nil _ _) (fun _ => Bracket.read_tripled .body pos _)
      (Token.read_eq_none nofun) hnext

/-- The pass comes to the last of the brackets in front of a text. -/
theorem inBrackets {t : Text} (n : Nat) (ht : t.head? = some leftBracket)
    (h : Pass source ⟨n, leftBracket :: (t ++ List.replicate (n + 1) rightBracket)⟩ items) :
    Pass source (.ofText (t.inBrackets (n + 1)) 0) items := by
  obtain ⟨u, rfl⟩ := List.head?_eq_some_iff.1 ht
  have hrun : Pass source ⟨0, _⟩ items := run n (by rwa [Nat.zero_add])
  rw [List.replicate_succ', List.append_assoc] at hrun
  exact hrun

end Pass

/-! ## Escapes around tags -/

namespace Scan

theorem expand_brackets (source : Text) (n : Nat) (bs : List Bracket) :
    Piece.expand source n (bs.map .bracket) = bs.map .bracket := by
  induction bs with
  | nil => rfl
  | cons b rest ih => exact congrArg (_ :: ·) ih

theorem tags_of_pass {source : Text} {bs : List Bracket}
    (h : Pass source (.ofText source 0) (bs.map .bracket)) : tags source = bs := by
  rw [tags, pieces_of_pass h (Cursor.over_ofText source), expand_brackets, List.filterMap_map]
  exact List.filterMap_some

variable {tag name inner : Text} {kind : BracketKind} {arguments : Arguments}

/-- The tag in the innermost brackets is doubled on both sides. -/
theorem tags_inBrackets (n : Nat) (h : Bracket.Written tag name kind) :
    tags (tag.inBrackets (n + 1)) =
      [⟨name, kind, ⟨n + 1, n + 1 + tag.length⟩, true, true, .body⟩] := by
  have hread := Bracket.read_written .body n true true h (List.replicate n rightBracket) nofun
  exact tags_of_pass (.inBrackets n h.head?_eq
    (.bracket rfl hread (.of_inert (Text.inert_replicate n) _)))

/-- An open tag and its close tag, with the text `inner` between the two. -/
def pairText (opener inner name : Text) : Text :=
  opener ++ (inner ++ leftBracket :: slash :: (name ++ [rightBracket]))

/-- The open tag is doubled in front and the close tag behind. -/
theorem tags_inBrackets_pair (n : Nat) (h : Bracket.Written tag name (.opening arguments false))
    (hinner : inner.Inert) (hclear : rightBracket ∉ inner) :
    tags ((pairText tag inner name).inBrackets (n + 1)) =
      [⟨name, .opening arguments false, ⟨n + 1, n + 1 + tag.length⟩, true, false, .body⟩,
        ⟨name, .closing, ⟨n + 1 + tag.length + inner.length,
          n + 1 + tag.length + inner.length + (name.length + 3)⟩, false, true, .body⟩] := by
  have hnot : (inner ++ leftBracket :: slash :: (name ++ rightBracket ::
      List.replicate (n + 1) rightBracket)).head? ≠ some rightBracket := by
    cases inner with
    | nil => nofun
    | cons x inner => exact fun hx => hclear (by cases hx; exact List.mem_cons_self)
  have hopen := Bracket.read_written .body n true false h _ fun _ => hnot
  have hclose := Bracket.read_written .body (n + 1 + tag.length + inner.length) false true
    (.closing h.isName) (List.replicate n rightBracket) nofun
  have hlength : (leftBracket :: slash :: (name ++ [rightBracket])).length = name.length + 3 := by
    simp
  rw [hlength] at hclose
  refine tags_of_pass (.inBrackets n ?_ ?_)
  · rw [pairText, List.head?_append, h.head?_eq]
    rfl
  · refine .bracket rfl (c := ⟨n, _⟩) (by simpa [pairText] using hopen) ?_
    refine .step_over hinner
      (.bracket rfl (c := ⟨_, _⟩) (by simpa [List.replicate_succ] using hclose) ?_)
    exact .of_inert (Text.inert_replicate n) _

/-- A tag in brackets is one escape. -/
theorem exists_occurrences_inBrackets (n : Nat) (h : Bracket.Written tag name kind)
    (pairs : Text → Bool) :
    ∃ o, (ofText (tag.inBrackets (n + 1)) pairs).occurrences = [o] ∧ o.escaped = true ∧
      o.span = ⟨n, n + 1 + tag.length + 1⟩ := by
  have halone : ∃ arguments form, Bracket.Alone pairs
      ⟨name, kind, ⟨n + 1, n + 1 + tag.length⟩, true, true, .body⟩ [] arguments form := by
    cases kind with
    | closing => exact ⟨_, _, .strayClose rfl⟩
    | opening arguments selfClosing =>
      cases selfClosing with
      | false => exact ⟨_, _, .escape rfl rfl⟩
      | true => exact ⟨_, _, .selfClosing rfl⟩
  obtain ⟨arguments, form, halone⟩ := halone
  rw [occurrences_ofText, tags_inBrackets n h]
  exact ⟨_, Occurrence.ofBrackets_alone halone rfl rfl, rfl, rfl⟩

/-- So are an open tag and its close tag, whether or not the name takes content. -/
theorem exists_occurrences_inBrackets_pair (n : Nat)
    (h : Bracket.Written tag name (.opening arguments false)) (hinner : inner.Inert)
    (hclear : rightBracket ∉ inner) (pairs : Text → Bool) :
    ∃ o, (ofText ((pairText tag inner name).inBrackets (n + 1)) pairs).occurrences = [o] ∧
      o.escaped = true ∧ o.span = ⟨n, n + 1 + (pairText tag inner name).length + 1⟩ := by
  have hlength :
      (pairText tag inner name).length = tag.length + inner.length + (name.length + 3) := by
    simp [pairText]
    omega
  rw [occurrences_ofText, tags_inBrackets_pair n h hinner hclear, hlength]
  refine ⟨_, Occurrence.ofBrackets_pair ⟨rfl, rfl⟩
    (Occurrence.findClose?_append (List.forall_mem_nil _) ?_) rfl, rfl, ?_⟩
  · simp [Bracket.closes, Bracket.isClosing, Bracket.isEscape]
  · simp [Occurrence.between, Occurrence.widen, Nat.add_assoc]

end Scan

/-! ## What stands around a tag -/

/-- The bytes at the cursor are those of the source from its offset on. -/
def Cursor.Within (source : Text) (c : Cursor) : Prop :=
  ∀ i b, c.rest[i]? = some b → source[c.pos + i]? = some b

namespace Cursor

variable {source : Text} {c d : Cursor}

theorem Over.within (h : c.Over source) : c.Within source := by
  intro i b hi
  rwa [h.2, List.getElem?_drop] at hi

theorem within_slice (source : Text) (s : Span) :
    (ofText (s.slice source) s.start).Within source := by
  intro i b hi
  have htake : ((source.drop s.start).take s.length)[i]? = some b := hi
  rw [List.getElem?_take, List.getElem?_drop] at htake
  exact (Option.ite_none_right_eq_some.1 htake).2

theorem Reaches.within (h : c.Reaches d) (hc : c.Within source) : d.Within source := by
  obtain ⟨n, -, rfl⟩ := h
  intro i b hi
  rw [advance_rest, List.getElem?_drop] at hi
  rw [← hc _ b hi]
  exact congrArg (source[·]?) (Nat.add_assoc ..)

/-- Behind a part of the text at the cursor. -/
theorem Within.append {a t : Text} (hc : c.Within source) (hrest : c.rest = a ++ t) :
    (mk (c.pos + a.length) t).Within source :=
  (reaches_of_append hrest.symm).within hc

theorem Within.peek {b : UInt8} (hc : c.Within source) (hpeek : c.peek? = some b) :
    source[c.pos]? = some b := by
  rw [peek?, List.head?_eq_getElem?] at hpeek
  exact hc 0 b hpeek

end Cursor

namespace Bracket

/-- A tag of the source, with its own brackets and those that are doubled around it. -/
structure Stands (source : Text) (b : Bracket) : Prop where
  long : b.span.start + 2 ≤ b.span.stop
  first : source[b.span.start]? = some leftBracket
  last : source[b.span.stop - 1]? = some rightBracket
  lead : b.lead = true → 1 ≤ b.span.start ∧ source[b.span.start - 1]? = some leftBracket
  trail : b.trail = true → source[b.span.stop]? = some rightBracket

variable {source : Text} {context : Context} {c d : Cursor} {b : Bracket}

/-- What is read is written, with the doubled brackets around it. -/
theorem exists_written_of_read (hpeek : c.peek? = some leftBracket)
    (hread : read? context c = some (b, d)) :
    ∃ tag, Written tag b.name b.kind ∧
      b.span = ⟨c.pos + b.lead.toNat, c.pos + b.lead.toNat + tag.length⟩ ∧
      c.rest = List.replicate b.lead.toNat leftBracket ++
        (tag ++ (List.replicate b.trail.toNat rightBracket ++ d.rest)) := by
  obtain ⟨pos, _⟩ := c
  obtain ⟨rest, rfl⟩ := List.head?_eq_some_iff.1 hpeek
  rw [read?] at hread
  simp only at hread
  split at hread
  · cases hread
  · rename_i b' after hsingle
    have hafter : after.rest =
        List.replicate (after.startsWith [rightBracket]).toNat rightBracket ++
          (if after.startsWith [rightBracket] then after.advance 1 else after).rest := by
      cases htrail : after.startsWith [rightBracket] with
      | false => rfl
      | true =>
        obtain ⟨t, ht⟩ := List.isPrefixOf_iff_prefix.1 htrail
        rw [if_pos rfl, Cursor.advance_rest, ← ht]
        rfl
    cases hlead : ((Cursor.mk pos (leftBracket :: rest)).peekAt? 1 == some leftBracket) with
    | false =>
      rw [hlead] at hsingle hread
      obtain ⟨tag, name, kind, hwritten, hrest, -, rfl⟩ := readSingle_eq_some_iff.1 hsingle
      cases hread
      refine ⟨tag, hwritten, rfl, ?_⟩
      rw [hrest, hafter]
      rfl
    | true =>
      rw [hlead] at hsingle hread
      have hrest : rest.head? = some leftBracket := by
        rw [List.head?_eq_getElem?]
        exact eq_of_beq hlead
      obtain ⟨rest, rfl⟩ := List.head?_eq_some_iff.1 hrest
      obtain ⟨tag, name, kind, hwritten, hrest, -, rfl⟩ := readSingle_eq_some_iff.1 hsingle
      cases hread
      refine ⟨tag, hwritten, rfl, ?_⟩
      rw [hrest, hafter]
      rfl

theorem stands_of_read (hc : c.Within source) (hpeek : c.peek? = some leftBracket)
    (hread : read? context c = some (b, d)) : b.Stands source := by
  obtain ⟨tag, hwritten, hspan, hrest⟩ := exists_written_of_read hpeek hread
  obtain ⟨inside, rfl, -⟩ := hwritten.exists_inside
  have htag := hc.append hrest
  have hlast := htag.append (a := leftBracket :: inside)
    (t := rightBracket :: (List.replicate b.trail.toNat rightBracket ++ d.rest)) (by simp)
  have hbehind := htag.append rfl
  simp only [List.length_replicate, List.length_cons, List.length_append, List.length_nil]
    at htag hlast hbehind hspan
  refine ⟨?_, ?_, ?_, fun hlead => ?_, fun htrail => ?_⟩
  · rw [hspan]
    dsimp only
    omega
  · rw [hspan]
    exact htag.peek rfl
  · rw [hspan]
    exact hlast.peek rfl
  · rw [hspan, hlead]
    exact ⟨Nat.le_add_left _ _, hc.peek hpeek⟩
  · rw [htrail] at hbehind
    rw [hspan]
    exact hbehind.peek rfl

end Bracket

/-- Every tag of a text, in ordinary text or in a region, stands there. -/
theorem Scan.stands_of_mem_tags {source : Text} {b : Bracket} (hb : b ∈ tags source) :
    b.Stands source := by
  rcases readIn_of_mem_tags hb with ⟨c, d, hc, hpeek, hread, -⟩ | ⟨r, -, hb⟩
  · exact Bracket.stands_of_read (hc.within (Cursor.over_ofText source).within) hpeek hread
  · obtain ⟨c, d, hc, hpeek, hread, -⟩ := exists_read_of_mem_brackets hb
    exact Bracket.stands_of_read (hc.within (Cursor.within_slice source r.span)) hpeek hread

/-! ## Escapes -/

namespace Span

variable {source : Text} {start stop : Nat} {b : UInt8}

theorem slice_cons (hlt : start < stop) (hb : source[start]? = some b) :
    (Span.mk start stop).slice source = b :: (Span.mk (start + 1) stop).slice source := by
  rw [Segment.slice_succ hlt, hb]
  rfl

theorem slice_concat (hlt : start < stop) (hb : source[stop - 1]? = some b) :
    (Span.mk start stop).slice source = (Span.mk start (stop - 1)).slice source ++ [b] := by
  have hlength : (Span.mk start stop).length = (Span.mk start (stop - 1)).length + 1 := by
    show stop - start = stop - 1 - start + 1
    omega
  have hlast : (source.drop start)[(Span.mk start (stop - 1)).length]? = some b := by
    rw [List.getElem?_drop, ← hb]
    refine congrArg (source[·]?) ?_
    show start + (stop - 1 - start) = stop - 1
    omega
  rw [slice, slice, hlength, List.take_add_one, hlast]
  rfl

end Span

namespace Scan

variable {source : Text} {pairs : Text → Bool} {o : Occurrence}

/-- The span of an escape, from its first tag to its last one, starts with two `[` and ends with two
`]`. -/
structure Doubled (source : Text) (s : Span) : Prop where
  long : s.start + 4 ≤ s.stop
  first : source[s.start]? = some leftBracket
  second : source[s.start + 1]? = some leftBracket
  secondLast : source[s.stop - 1 - 1]? = some rightBracket
  last : source[s.stop - 1]? = some rightBracket

theorem doubled_widen {b close : Bracket} (hb : b.Stands source) (hclose : close.Stands source)
    (hlead : b.lead = true) (htrail : close.trail = true)
    (hle : b.span.start + 2 ≤ close.span.stop) :
    Doubled source (Occurrence.widen ⟨b.span.start, close.span.stop⟩ true) := by
  obtain ⟨hone, hfirst⟩ := hb.lead hlead
  refine ⟨?_, hfirst, ?_, hclose.last, hclose.trail htrail⟩
  · show b.span.start - 1 + 4 ≤ close.span.stop + 1
    omega
  · show source[b.span.start - 1 + 1]? = _
    rw [Nat.sub_add_cancel hone, hb.first]

theorem doubled_of_escaped (ho : o ∈ (ofText source pairs).occurrences)
    (hescaped : o.escaped = true) : Doubled source o.span := by
  rw [occurrences_ofText] at ho
  have hstands : ∀ b ∈ tags source, b.Stands source := fun b hb => stands_of_mem_tags hb
  cases (Occurrence.pairing_ofBrackets pairs (tags source)).origin ho with
  | @single _ _ b arguments form htags _ =>
    have hb := hstands b (by simp [htags])
    have hboth : b.isEscape = true := hescaped
    obtain ⟨hlead, htrail⟩ := Bool.and_eq_true_iff.1 hboth
    rw [Occurrence.alone, hboth]
    exact doubled_widen hb hb hlead htrail hb.long
  | @pair _ _ _ b close arguments htags _ _ _ _ =>
    have hb := hstands b (by simp [htags])
    have hclose := hstands close (by simp [htags])
    have hboth : (b.lead && close.trail) = true := hescaped
    obtain ⟨hlead, htrail⟩ := Bool.and_eq_true_iff.1 hboth
    have horder : b.outer.stop ≤ close.outer.start := by
      have hpairwise := (tags_inOrder source).pairwise
      rw [htags, List.map_append, List.pairwise_append] at hpairwise
      exact (List.pairwise_cons.1 hpairwise.2.1).1 _ (by simp)
    have hle : b.span.start + 2 ≤ close.span.stop := by
      have hlong := hb.long
      have hlong' := hclose.long
      have hstop := b.span_stop_le_outer
      have hstart := close.outer_start_le
      omega
    simp only [Occurrence.between, hboth]
    exact doubled_widen hb hclose hlead htrail hle

/-- An escape stands between two `[` and two `]`, and stands for its text with one of each. -/
theorem exists_text_of_escaped (ho : o ∈ (ofText source pairs).occurrences)
    (hescaped : o.escaped = true) :
    ∃ inside,
      o.text source = leftBracket :: leftBracket :: (inside ++ [rightBracket, rightBracket]) ∧
      o.unescaped source = leftBracket :: (inside ++ [rightBracket]) := by
  obtain ⟨hlong, h0, h1, h2, h3⟩ := doubled_of_escaped ho hescaped
  refine ⟨(Span.mk (o.span.start + 1 + 1) (o.span.stop - 1 - 1)).slice source, ?_, ?_⟩
  · show (Span.mk o.span.start o.span.stop).slice source = _
    rw [Span.slice_cons (by omega) h0, Span.slice_cons (by omega) h1,
      Span.slice_concat (by omega) h3, Span.slice_concat (by omega) h2, List.append_assoc]
    rfl
  · show (Span.mk (o.span.start + 1) (o.span.stop - 1)).slice source = _
    rw [Span.slice_cons (by omega) h1, Span.slice_concat (by omega) h2]

end Scan

end Shortcode
