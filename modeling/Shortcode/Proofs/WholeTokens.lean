import Shortcode.Markup.Lexer
import Shortcode.Proofs.UnendedTokens

/-!
# Tokens read whole or not at all

The reader of tokens moves its cursor as it goes, and puts it back if it finds none.  What it finds
is `Token.Whole`: it takes up exactly the text that the cursor has passed, from a `<` to a `>`, with
the attribute values inside it one after the other.

    match lex c with
    | (some t, d) => (∃ text, Whole c d text t) ∧ Starts c.rest ∧ ¬ Unended c.rest
    | (none, d) => d = c ∧ (¬ Starts c.rest ∨ Unended c.rest)                          (lex_exact)
-/

namespace Shortcode

open Byte

namespace Token

/-- A comment that is not closed: what stands behind its first four bytes holds no `-->`. -/
def OpenComment (t : Text) : Prop :=
  [less, bang, hyphen, hyphen] <+: t ∧ ¬ [hyphen, hyphen, greater] <:+: t.drop 4

/-- The names of the element and of the attributes. -/
def names : Token → List Text
  | .start tag => tag.name :: tag.attributes.map (·.name)
  | .finish name _ => [name]
  | .opaqueText _ => []

/-- The spans of the attribute values, in order. -/
def values : Token → List Span
  | .start tag => Attribute.values tag.attributes
  | _ => []

/-- The token `t` takes up the `text` between the cursors `c` and `d`. -/
structure Whole (c d : Cursor) (text : Text) (t : Token) : Prop where
  rest_eq : c.rest = text ++ d.rest
  pos_eq : d.pos = c.pos + text.length
  span_eq : t.span = ⟨c.pos, d.pos⟩
  head_eq : text.head? = some less
  /-- An open comment ends with the text; all else ends with a `>`. -/
  ends : OpenComment c.rest ∧ d.rest = [] ∨
    ¬ OpenComment c.rest ∧ text.getLast? = some greater
  names_ne_nil : ∀ name ∈ t.names, name ≠ []
  values_inside : ∀ v ∈ t.values, c.pos < v.start ∧ v.start ≤ v.stop ∧ v.stop < d.pos
  values_apart : t.values.Pairwise (·.stop < ·.start)

end Token

/-! ## Moving and reading -/

namespace Attribute

variable {c : Cursor}

theorem moveAll_of_nil (hrest : (c.skipWhile isSpace).rest = []) :
    moveAll c = (none, c.skipWhile isSpace) := by
  rw [moveAll]
  simp only
  split
  · rfl
  · rename_i hcons
    cases hrest.symm.trans hcons

/-- What the first byte behind the white space makes of a tag. -/
theorem moveAll_of_rest {b : UInt8} {rest : Text} (hrest : (c.skipWhile isSpace).rest = b :: rest) :
    moveAll c =
      if b = greater then (some ([], false), (c.skipWhile isSpace).advance 1)
      else if b = slash then
        if rest.head? = some greater then (some ([], true), (c.skipWhile isSpace).advance 2)
        else moveAll ((c.skipWhile isSpace).advance 1)
      else (move (c.skipWhile isSpace)).andThen fun a after =>
        (moveAll after).andThen fun (more, selfClosing) stop =>
          (some (a :: more, selfClosing), stop) := by
  rw [moveAll]
  simp only
  split
  · rename_i hnil
    cases hnil.symm.trans hrest
  · rename_i b' rest' hrest'
    cases hrest'.symm.trans hrest
    split
    · rfl
    · split
      · rfl
      · split <;> rename_i hmove <;> rw [hmove] <;> rfl

theorem found?_moveAll (c : Cursor) : (moveAll c).found? =
    (readAll? c).map fun (as, selfClosing, stop) => ((as, selfClosing), stop) := by
  induction hn : c.rest.length using Nat.strongRecOn generalizing c with
  | _ n ih =>
    subst hn
    have hle := Cursor.length_skipWhile_le isSpace c
    cases hrest : (c.skipWhile isSpace).rest with
    | nil =>
      rw [moveAll_of_nil hrest, readAll?_of_nil hrest]
      rfl
    | cons b rest =>
      have hne : (c.skipWhile isSpace).rest ≠ [] := by simp [hrest]
      rw [moveAll_of_rest hrest, readAll?_of_rest hrest]
      split
      · rfl
      · split
        · split
          · rfl
          · have hlt := Cursor.length_advance_lt (by decide : 0 < 1) hne
            exact ih _ (by omega) _ rfl
        · rw [Move.found?_andThen, found?_move]
          cases hread : read? (c.skipWhile isSpace) with
          | none => rfl
          | some p =>
            obtain ⟨a, after⟩ := p
            have hlt := length_read_lt hne hread
            have hmore := ih _ (by omega) after rfl
            dsimp only [Option.bind_some]
            rw [Move.found?_andThen, hmore]
            cases readAll? after <;> rfl

end Attribute

namespace Token

theorem found?_moveDeclaration (c : Cursor) : (moveDeclaration c).found? = readDeclaration? c := by
  unfold moveDeclaration readDeclaration?
  dsimp only
  split <;> rfl

theorem found?_moveFinish (c : Cursor) : (moveFinish c).found? = readFinish? c := by
  unfold moveFinish readFinish?
  dsimp only
  split <;> rfl

theorem found?_moveStart (c : Cursor) : (moveStart c).found? = readStart? c := by
  rw [moveStart, readStart?, Move.found?_andThen, Attribute.found?_moveAll]
  cases Attribute.readAll? _ <;> rfl

theorem found?_move (c : Cursor) : (move c).found? = read? c := by
  rw [move, read?]
  rcases c.rest with _ | ⟨first, _ | ⟨second, rest⟩⟩
  · rfl
  · rfl
  · dsimp only
    split
    · rfl
    · split
      · rfl
      · split
        · exact found?_moveDeclaration c
        · split
          · exact found?_moveFinish c
          · split
            · exact found?_moveStart c
            · rfl

/-- A token is read with the cursor moved past it, or nothing is and the cursor is where it was. -/
theorem lex_eq (c : Cursor) :
    lex c = match read? c with
      | some (t, d) => (some t, d)
      | none => (none, c) := by
  rw [lex, ← found?_move]
  rcases move c with ⟨_ | t, after⟩ <;> rfl

end Token

/-! ## Where a token ends -/

/-- A pattern that is nowhere reached does not occur. -/
theorem Text.not_infix_of_dropUntil {pattern t : Text} (hne : pattern ≠ [])
    (h : t.dropUntil (pattern.isPrefixOf ·) = []) : ¬ pattern <:+: t := by
  rintro ⟨front, rest, ht⟩
  have htake : t.takeUntil (pattern.isPrefixOf ·) = t := by
    have hsplit := takeUntil_append_dropUntil (pattern.isPrefixOf ·) t
    rwa [h, List.append_nil] at hsplit
  have hsuffix : pattern ++ rest <:+ t.takeUntil (pattern.isPrefixOf ·) := by
    rw [htake]
    exact ⟨front, by rw [← List.append_assoc, ht]⟩
  have hstop := not_stop_of_suffix_takeUntil hsuffix (List.append_ne_nil_of_left_ne_nil hne _)
  rw [h, List.append_nil, List.isPrefixOf_iff_prefix.2 (List.prefix_append _ _)] at hstop
  cases hstop

namespace Cursor

variable {c d e : Cursor}

theorem Reaches.exists_append (h : c.Reaches d) :
    ∃ text, c.rest = text ++ d.rest ∧ d.pos = c.pos + text.length := by
  obtain ⟨n, hn, rfl⟩ := h
  refine ⟨c.rest.take n, (List.take_append_drop n c.rest).symm, ?_⟩
  rw [List.length_take, Nat.min_eq_left hn]
  rfl

/-- The cursor `d` stands right behind a `>` that is at `c` or behind it. -/
def Closes (c d : Cursor) : Prop :=
  ∃ e, c.Reaches e ∧ e.peek? = some greater ∧ d = e.advance 1

theorem Reaches.closes (h : c.Reaches e) (hclose : e.Closes d) : c.Closes d := by
  obtain ⟨e', he, hpeek, rfl⟩ := hclose
  exact ⟨e', h.trans he, hpeek, rfl⟩

theorem closes_of_append (front : Text) {rest : Text} (h : c.rest = front ++ greater :: rest) :
    c.Closes (c.advance (front.length + 1)) := by
  refine ⟨c.advance front.length, reaches_advance ?_, ?_, (advance_advance c _ 1).symm⟩
  · rw [h, List.length_append]
    exact Nat.le_add_right _ _
  · rw [peek?, advance_rest, h, List.drop_left, List.head?_cons]

/-- The next `>`, if there is one. -/
theorem closes_skipWhile (h : ¬ (c.skipWhile (· != greater)).atEnd = true) :
    c.Closes ((c.skipWhile (· != greater)).advance 1) := by
  refine ⟨_, reaches_skipWhile _ c, ?_, rfl⟩
  obtain ⟨b, rest, hrest⟩ :=
    List.exists_cons_of_ne_nil
      (show (c.skipWhile (· != greater)).rest ≠ [] by simpa [atEnd] using h)
  have hb := Text.breaks_dropWhile (· != greater) c.rest b (congrArg List.head? hrest)
  rw [peek?, hrest, List.head?_cons]
  simpa using hb

theorem Closes.exists_append (h : c.Closes d) :
    ∃ front, c.rest = front ++ greater :: d.rest ∧ d.pos = c.pos + front.length + 1 := by
  obtain ⟨e, hreach, hpeek, rfl⟩ := h
  obtain ⟨front, hrest, hpos⟩ := hreach.exists_append
  obtain ⟨rest, he⟩ := List.head?_eq_some_iff.1 hpeek
  refine ⟨front, ?_, congrArg (· + 1) hpos⟩
  rw [hrest, advance_rest, he, List.drop_succ_cons, List.drop_zero]

end Cursor

namespace Attribute

variable {c d : Cursor} {a : Attribute} {as : List Attribute} {s : Bool}

theorem name_ne_nil_of_read (hc : c.rest ≠ []) (h : read? c = some (a, d)) : a.name ≠ [] := by
  have hslice :
      Text.lower (c.slice (c.spanTo ((c.advance 1).skipWhile isAttributeNameByte))) ≠ [] := by
    have hpos : c.pos < ((c.advance 1).skipWhile isAttributeNameByte).pos :=
      (Cursor.reaches_skipWhile isAttributeNameByte (c.advance 1)).pos_le
    have hlength := List.length_pos_iff.2 hc
    rw [← List.length_pos_iff, Text.lower, List.length_map, Cursor.slice, List.length_take]
    simp only [Cursor.spanTo, Span.length, Nat.sub_self, List.drop_zero]
    omega
  unfold read? at h
  dsimp only at h
  split at h
  · obtain ⟨⟨v, after⟩, -, he⟩ := Option.map_eq_some_iff.1 h
    cases he
    exact hslice
  · cases h
    exact hslice

/-- A name stands in front of the value. -/
theorem pos_lt_of_read (h : read? c = some (a, d)) {v : Span} (hv : a.value = some v) :
    c.pos < v.start := by
  unfold read? at h
  dsimp only at h
  split at h
  · rename_i hsign
    obtain ⟨⟨v', after⟩, hvalue, he⟩ := Option.map_eq_some_iff.1 h
    cases he
    cases hv
    have hname := (Cursor.reaches_skipWhile isAttributeNameByte (c.advance 1)).trans <|
      (Cursor.reaches_skipWhile isSpace _).trans <|
      (Cursor.reaches_next (Cursor.rest_ne_nil hsign)).trans (Cursor.reaches_skipWhile isSpace _)
    exact Nat.lt_of_lt_of_le (Nat.lt_succ_self c.pos)
      (Nat.le_trans hname.pos_le (reaches_of_readValue hvalue).2.1)
  · cases h
    cases hv

namespace Reads

theorem closes (h : Reads c as s d) : c.Closes d := by
  induction h with
  | greater hpeek => exact ⟨_, Cursor.reaches_skipWhile isSpace _, hpeek, rfl⟩
  | @close c hpeek hsecond =>
    refine ((Cursor.reaches_skipWhile isSpace c).trans
      (Cursor.reaches_next (Cursor.rest_ne_nil hpeek))).closes ⟨_, .refl _, ?_, ?_⟩
    · rw [← hsecond, Cursor.peek?, Cursor.peekAt?, Cursor.advance_rest, List.head?_drop]
    · rw [Cursor.advance_advance]
  | @slash c _ _ _ hpeek _ _ ih =>
    exact ((Cursor.reaches_skipWhile isSpace c).trans
      (Cursor.reaches_next (Cursor.rest_ne_nil hpeek))).closes ih
  | @next c _ _ _ _ _ _ hpeek _ _ hread _ ih =>
    exact ((Cursor.reaches_skipWhile isSpace c).trans
      (reaches_of_read (Cursor.rest_ne_nil hpeek) hread).1).closes ih

theorem name_ne_nil (h : Reads c as s d) : ∀ a ∈ as, a.name ≠ [] := by
  induction h with
  | greater | close => exact List.forall_mem_nil _
  | slash _ _ _ ih => exact ih
  | next hpeek _ _ hread _ ih =>
    exact List.forall_mem_cons.2 ⟨name_ne_nil_of_read (Cursor.rest_ne_nil hpeek) hread, ih⟩

theorem pos_lt (h : Reads c as s d) : ∀ v ∈ values as, c.pos < v.start := by
  induction h with
  | greater | close => exact List.forall_mem_nil _
  | @slash c _ _ _ _ _ _ ih =>
    intro v hv
    exact Nat.lt_of_le_of_lt (Cursor.reaches_skipWhile isSpace c).pos_le
      (Nat.lt_of_succ_lt (ih v hv))
  | @next c _ _ a as _ _ hpeek _ _ hread _ ih =>
    have hskip := Cursor.reaches_skipWhile isSpace c
    intro v hv
    obtain ⟨a', ha', hvalue⟩ := List.mem_filterMap.1 hv
    obtain rfl | hmem := List.mem_cons.1 ha'
    · exact Nat.lt_of_le_of_lt hskip.pos_le (pos_lt_of_read hread hvalue)
    · exact Nat.lt_of_le_of_lt
        (hskip.trans (reaches_of_read (Cursor.rest_ne_nil hpeek) hread).1).pos_le
        (ih v (List.mem_filterMap.2 ⟨a', hmem, hvalue⟩))

/-- At least a name stands between two values. -/
theorem values_apart (h : Reads c as s d) : (values as).Pairwise (·.stop < ·.start) := by
  induction h with
  | greater | close => exact .nil
  | slash _ _ _ ih => exact ih
  | @next _ _ _ a _ _ _ hpeek _ _ hread hmore ih =>
    cases hv : a.value with
    | none =>
      rw [values, List.filterMap_cons_none hv]
      exact ih
    | some v =>
      rw [values, List.filterMap_cons_some hv]
      have hstop := ((reaches_of_read (Cursor.rest_ne_nil hpeek) hread).2 v hv).2.2
      exact .cons (fun w hw => Nat.lt_of_le_of_lt hstop (hmore.pos_lt w hw)) ih

end Reads

end Attribute

/-! ## Whole tokens -/

namespace Token

variable {c d : Cursor} {t : Token}

theorem not_openComment_iff (hopen : [less, bang, hyphen, hyphen] <+: c.rest) :
    ¬ OpenComment c.rest ↔ [hyphen, hyphen, greater] <:+: c.rest.drop 4 := by
  rw [OpenComment, not_and, not_not, forall_prop_of_true hopen]

/-- A comment ends behind its `-->`, or with the text if there is none. -/
theorem ends_readComment (hopen : [less, bang, hyphen, hyphen] <+: c.rest) :
    OpenComment c.rest ∧ (readComment c).2.rest = [] ∨
      ¬ OpenComment c.rest ∧ c.Closes (readComment c).2 := by
  have hreach := (Cursor.reaches_advance hopen.length_le).trans
    (Cursor.reaches_skipUntil ([hyphen, hyphen, greater].isPrefixOf ·) (c.advance 4))
  unfold readComment
  dsimp only
  split
  · rename_i hend
    have hnil : ((c.advance 4).skipUntil ([hyphen, hyphen, greater].isPrefixOf ·)).rest = [] := by
      simpa [Cursor.atEnd] using hend
    exact .inl ⟨⟨hopen, Text.not_infix_of_dropUntil (List.cons_ne_nil _ _) hnil⟩, hnil⟩
  · rename_i hend
    obtain ⟨rest, hrest⟩ := List.isPrefixOf_iff_prefix.1
      (Text.stop_dropUntil ([hyphen, hyphen, greater].isPrefixOf ·)
        (t := (c.advance 4).rest) (by simpa [Cursor.atEnd, Cursor.skipUntil] using hend))
    refine .inr ⟨(not_openComment_iff hopen).2 ?_, ?_⟩
    · rw [← Text.takeUntil_append_dropUntil ([hyphen, hyphen, greater].isPrefixOf ·)
        (c.rest.drop 4)]
      exact ⟨_, rest, by rw [List.append_assoc]; exact congrArg _ hrest⟩
    · exact hreach.closes (Cursor.closes_of_append [hyphen, hyphen] hrest.symm)

/-- What a declaration, an end tag and a start tag have in common. -/
structure Closed (c d : Cursor) (t : Token) : Prop where
  closes : c.Closes d
  names_ne_nil : ∀ name ∈ t.names, name ≠ []
  values_apart : t.values.Pairwise (·.stop < ·.start)

theorem closed_of_readDeclaration (h : readDeclaration? c = some (t, d)) : Closed c d t := by
  unfold readDeclaration? at h
  dsimp only at h
  split at h
  · cases h
  · rename_i hend
    cases h
    exact ⟨Cursor.closes_skipWhile hend, List.forall_mem_nil _, .nil⟩

theorem takeWhile_isElementNameByte_ne_nil {b : UInt8} (hb : c.peek? = some b)
    (hletter : isLetter b = true) : Text.lower (c.takeWhile isElementNameByte) ≠ [] := by
  obtain ⟨rest, hrest⟩ := List.head?_eq_some_iff.1 hb
  rw [Cursor.takeWhile, hrest, List.takeWhile_cons_of_pos (of_isLetter b hletter).1]
  exact List.cons_ne_nil _ _

theorem closed_of_readFinish {b : UInt8} (hb : (c.advance 2).peek? = some b)
    (hletter : isLetter b = true) (hc : 2 ≤ c.rest.length) (h : readFinish? c = some (t, d)) :
    Closed c d t := by
  unfold readFinish? at h
  dsimp only at h
  split at h
  · cases h
  · rename_i hend
    cases h
    have hname := (Cursor.reaches_advance hc).trans (Cursor.reaches_skipWhile isElementNameByte _)
    exact ⟨hname.closes (Cursor.closes_skipWhile hend),
      List.forall_mem_singleton.2 (takeWhile_isElementNameByte_ne_nil hb hletter), .nil⟩

theorem closed_of_readStart {b : UInt8} (hb : (c.advance 1).peek? = some b)
    (hletter : isLetter b = true) (hc : c.rest ≠ []) (h : readStart? c = some (t, d)) :
    Closed c d t := by
  unfold readStart? at h
  obtain ⟨⟨as, s, stop⟩, hread, he⟩ := Option.map_eq_some_iff.1 h
  cases he
  have hreads := Attribute.reads_of_readAll hread
  have hname := (Cursor.reaches_next hc).trans (Cursor.reaches_skipWhile isElementNameByte _)
  refine ⟨hname.closes hreads.closes, List.forall_mem_cons.2
    ⟨takeWhile_isElementNameByte_ne_nil hb hletter, ?_⟩, hreads.values_apart⟩
  rintro name hmem
  obtain ⟨a, ha, rfl⟩ := List.mem_map.1 hmem
  exact hreads.name_ne_nil a ha

theorem not_openComment {b : UInt8} {rest : Text}
    (h : ¬ (b = bang ∧ [hyphen, hyphen] <+: rest)) : ¬ OpenComment (less :: b :: rest) := by
  rintro ⟨hopen, -⟩
  simp only [List.cons_prefix_cons, true_and] at hopen
  exact h ⟨hopen.1.symm, by simpa [List.cons_prefix_cons] using hopen.2⟩

/-- How a token that is read ends, and what its names and values are. -/
theorem ends_of_read (h : read? c = some (t, d)) : c.peek? = some less ∧
    (OpenComment c.rest ∧ d.rest = [] ∨ ¬ OpenComment c.rest ∧ c.Closes d) ∧
    (∀ name ∈ t.names, name ≠ []) ∧ t.values.Pairwise (·.stop < ·.start) := by
  obtain ⟨pos, text⟩ := c
  unfold read? at h
  dsimp only at h
  split at h
  · rename_i first b rest
    split at h
    · cases h
    · rename_i hfirst
      obtain rfl : first = less := by simpa using hfirst
      refine ⟨rfl, ?_⟩
      split at h
      · rename_i hcomment
        obtain ⟨rfl, hopen⟩ : b = bang ∧ [hyphen, hyphen] <+: rest := by simpa using hcomment
        have hends := ends_readComment (c := ⟨pos, less :: bang :: rest⟩)
          (by simpa [List.cons_prefix_cons] using hopen)
        cases h
        exact ⟨hends, List.forall_mem_nil _, .nil⟩
      · rename_i hcomment
        have hnot := not_openComment (by simpa using hcomment)
        suffices hclosed : Closed ⟨pos, less :: b :: rest⟩ d t from
          ⟨.inr ⟨hnot, hclosed.closes⟩, hclosed.names_ne_nil, hclosed.values_apart⟩
        split at h
        · exact closed_of_readDeclaration h
        · split at h
          · rename_i hfinish
            obtain ⟨-, x, hhead, hletter⟩ :
                b = slash ∧ ∃ x, rest.head? = some x ∧ isLetter x = true := by
              simpa [Option.any_eq_true] using hfinish
            exact closed_of_readFinish hhead hletter (by simp) h
          · split at h
            · rename_i hletter
              exact closed_of_readStart rfl hletter (List.cons_ne_nil _ _) h
            · cases h
  · cases h

theorem whole_of_read (h : read? c = some (t, d)) : ∃ text, Whole c d text t := by
  obtain ⟨hreach, hspan, hlt, hvalues⟩ := readFrom_of_read h
  obtain ⟨hless, hends, hnames, hapart⟩ := ends_of_read h
  obtain ⟨text, hrest, hpos⟩ := hreach.exists_append
  have hne : text ≠ [] := by
    rintro rfl
    simp only [List.length_nil] at hpos
    omega
  refine ⟨text, hrest, hpos, hspan, ?_, hends.imp_right (And.imp_right fun hclose => ?_), hnames,
    ?_, hapart⟩
  · rw [Cursor.peek?, hrest, List.head?_append_of_ne_nil _ hne] at hless
    exact hless
  · obtain ⟨front, hfront, -⟩ := hclose.exists_append
    have htext : text = front ++ [greater] := by
      refine (List.append_left_inj d.rest).1 ?_
      rw [← hrest, hfront, List.append_assoc, List.singleton_append]
    rw [htext, List.getLast?_concat]
  · cases t with
    | start tag =>
      intro v hv
      have hbounds := (hvalues tag rfl).bounds hv
      omega
    | finish | opaqueText => exact List.forall_mem_nil _

theorem head?_of_starts {t : Text} (h : Starts t) : t.head? = some less := by
  cases h <;> rfl

/-- A token is read exactly, with the cursor moved past it, or the cursor is where it was and no
token starts there that has an end. -/
theorem lex_exact (c : Cursor) :
    match lex c with
    | (some t, d) => (∃ text, Whole c d text t) ∧ Starts c.rest ∧ ¬ Unended c.rest
    | (none, d) => d = c ∧ (¬ Starts c.rest ∨ Unended c.rest) := by
  rw [lex_eq]
  cases hread : read? c with
  | some p =>
    obtain ⟨t, d⟩ := p
    have hsome : ¬ read? c = none := by simp [hread]
    rw [read_eq_none_iff (ends_of_read hread).1, not_or, not_not] at hsome
    exact ⟨whole_of_read hread, hsome⟩
  | none =>
    refine ⟨rfl, ?_⟩
    by_cases hless : c.peek? = some less
    · exact (read_eq_none_iff hless).1 hread
    · exact .inl fun hstarts => hless (head?_of_starts hstarts)

/-- A quote that does not come again takes the reader to the end of the text and back. -/
example : let c := Cursor.ofText (Text.ofString "<a href=\"oops>text") 7
    (move c).2.pos = 25 ∧ (lex c).1 = none ∧ (lex c).2.pos = 7 := by decide +kernel

end Token

end Shortcode
