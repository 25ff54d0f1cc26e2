import Shortcode.Proofs.BracketOrder

/-!
# The same text at two places

A run of text may stand at two places, with other text behind it at each (`TwoPlaces`).  Two cursors
at the same byte of the run are `Twins`.  What a reader gives at one of them it gives at the other,
moved, as long as it looks at no byte behind the run.

    k.Twins c d → Bracket.read? context c = some (b, c') → b.span.stop ≤ k.stop →
      ∃ b' d', Bracket.read? context d = some (b', d')                (Bracket.exists_read_of_twins)

A reader looks one or two bytes beyond what it takes up, so each lemma says how far a cursor has to
stay in front of the end of the run.
-/

namespace Shortcode

open Byte

/-- A run of `length` bytes that stands at offset `left` with the text `leftAfter` behind it, and at
offset `right` with `rightAfter` behind it. -/
structure TwoPlaces where
  left : Nat
  right : Nat
  length : Nat
  leftAfter : Text
  rightAfter : Text

namespace TwoPlaces

/-- The offset behind the run at its left place. -/
def stop (k : TwoPlaces) : Nat := k.left + k.length

/-- The same two places the other way round. -/
def swap (k : TwoPlaces) : TwoPlaces := ⟨k.right, k.left, k.length, k.rightAfter, k.leftAfter⟩

/-- The span at the right place for one at the left place. -/
def move (k : TwoPlaces) (s : Span) : Span :=
  ⟨s.start - k.left + k.right, s.stop - k.left + k.right⟩

/-- The cursors stand at the same byte of the run, or both behind it. -/
def Twins (k : TwoPlaces) (c d : Cursor) : Prop :=
  ∃ i t, i + t.length = k.length ∧ c = ⟨k.left + i, t ++ k.leftAfter⟩ ∧
    d = ⟨k.right + i, t ++ k.rightAfter⟩

/-- Behind the `]` or the `/]` at the cursor the run is not over yet. -/
def Ends (k : TwoPlaces) (c : Cursor) : Prop :=
  c.pos + (if c.startsWith [slash, rightBracket] then 2 else 1) ≤ k.stop

variable {k : TwoPlaces} {c c' d d' : Cursor}

/-! ## Twins -/

theorem Twins.swap (h : k.Twins c d) : k.swap.Twins d c := by
  obtain ⟨i, t, hlen, hc, hd⟩ := h
  exact ⟨i, t, hlen, hd, hc⟩

theorem Twins.left_le (h : k.Twins c d) : k.left ≤ c.pos := by
  obtain ⟨i, t, -, rfl, -⟩ := h
  exact Nat.le_add_right _ _

theorem Twins.pos_eq (h : k.Twins c d) : d.pos = c.pos - k.left + k.right := by
  obtain ⟨i, t, -, rfl, rfl⟩ := h
  show k.right + i = k.left + i - k.left + k.right
  omega

theorem Twins.spanTo (h : k.Twins c d) (h' : k.Twins c' d') :
    d.spanTo d' = k.move (c.spanTo c') := by
  rw [Cursor.spanTo, Cursor.spanTo, move, h.pos_eq, h'.pos_eq]

theorem Twins.advance (h : k.Twins c d) {n : Nat} (hn : c.pos + n ≤ k.stop) :
    k.Twins (c.advance n) (d.advance n) := by
  obtain ⟨i, t, hlen, rfl, rfl⟩ := h
  have hle : n ≤ t.length := by
    unfold stop at hn
    simp only at hn
    omega
  refine ⟨i + n, t.drop n, by rw [List.length_drop]; omega, ?_, ?_⟩
  · simp only [Cursor.advance, List.drop_append_of_le_length hle, Nat.add_assoc]
  · simp only [Cursor.advance, List.drop_append_of_le_length hle, Nat.add_assoc]

theorem Twins.rest_take (h : k.Twins c d) {n : Nat} (hn : c.pos + n ≤ k.stop) :
    d.rest.take n = c.rest.take n := by
  obtain ⟨i, t, hlen, rfl, rfl⟩ := h
  have hle : n ≤ t.length := by
    unfold stop at hn
    simp only at hn
    omega
  rw [List.take_append_of_le_length hle, List.take_append_of_le_length hle]

theorem Twins.getElem? (h : k.Twins c d) {n : Nat} (hn : c.pos + n < k.stop) :
    d.rest[n]? = c.rest[n]? := by
  have htake := h.rest_take (n := n + 1) hn
  rw [← List.getElem?_take_of_lt (Nat.lt_succ_self n), htake,
    List.getElem?_take_of_lt (Nat.lt_succ_self n)]

theorem Twins.head? (h : k.Twins c d) (hlt : c.pos < k.stop) : d.rest.head? = c.rest.head? := by
  rw [List.head?_eq_getElem?, List.head?_eq_getElem?, h.getElem? hlt]

theorem Twins.peek? (h : k.Twins c d) (hlt : c.pos < k.stop) : d.peek? = c.peek? := h.head? hlt

theorem Twins.rest_ne_nil (h : k.Twins c d) (hlt : c.pos < k.stop) : c.rest ≠ [] := by
  obtain ⟨i, t, hlen, rfl, -⟩ := h
  have hpos : 0 < t.length := by
    unfold stop at hlt
    simp only at hlt
    omega
  exact List.append_ne_nil_of_left_ne_nil (List.length_pos_iff.1 hpos) _

theorem Twins.atEnd (h : k.Twins c d) (hlt : c.pos < k.stop) :
    c.atEnd = false ∧ d.atEnd = false := by
  have hc := h.rest_ne_nil hlt
  have hd : d.rest ≠ [] := by
    intro e
    have := h.head? hlt
    rw [e, List.head?_nil, eq_comm, List.head?_eq_none_iff] at this
    exact hc this
  simp [Cursor.atEnd, hc, hd]

theorem Twins.stop_le (h : k.Twins c d) : k.stop ≤ c.stop := by
  obtain ⟨i, t, hlen, rfl, -⟩ := h
  simp only [stop, Cursor.stop, List.length_append]
  omega

/-- Whether a pattern that does not go beyond the run stands at a cursor. -/
theorem Twins.isPrefixOf (h : k.Twins c d) (pattern : Text) (hp : c.pos + pattern.length ≤ k.stop) :
    pattern.isPrefixOf d.rest = pattern.isPrefixOf c.rest := by
  rw [Bool.eq_iff_iff, List.isPrefixOf_iff_prefix, List.isPrefixOf_iff_prefix,
    List.prefix_iff_eq_take, List.prefix_iff_eq_take, h.rest_take hp]

theorem Twins.startsWith (h : k.Twins c d) (pattern : Text) (hp : c.pos + pattern.length ≤ k.stop) :
    d.startsWith pattern = c.startsWith pattern :=
  h.isPrefixOf pattern hp

/-! ## Skipping -/

/-- A run of bytes that ends inside. -/
theorem Twins.skipWhile (h : k.Twins c d) (p : UInt8 → Bool) (hlt : (c.skipWhile p).pos < k.stop) :
    k.Twins (c.skipWhile p) (d.skipWhile p) ∧ d.takeWhile p = c.takeWhile p := by
  obtain ⟨i, t, hlen, rfl, rfl⟩ := h
  -- a byte of the common text ends the run of bytes
  have hstops : ¬ (t.takeWhile p).length = t.length := by
    intro he
    unfold stop Cursor.skipWhile at hlt
    rw [List.takeWhile_append, if_pos he, List.length_append] at hlt
    simp only at hlt
    omega
  have hne : (t.dropWhile p).isEmpty = false := by
    have hsplit := congrArg List.length (List.takeWhile_append_dropWhile (p := p) (l := t))
    rw [List.length_append] at hsplit
    cases hd : t.dropWhile p with
    | nil => simp [hd] at hsplit; omega
    | cons b rest => rfl
  have htake : ∀ after, (t ++ after).takeWhile p = t.takeWhile p := fun after => by
    rw [List.takeWhile_append, if_neg hstops]
  have hdrop : ∀ after, (t ++ after).dropWhile p = t.dropWhile p ++ after := fun after => by
    rw [List.dropWhile_append, hne]
    rfl
  refine ⟨⟨i + (t.takeWhile p).length, t.dropWhile p, ?_, ?_, ?_⟩, ?_⟩
  · have hsplit := congrArg List.length (List.takeWhile_append_dropWhile (p := p) (l := t))
    rw [List.length_append] at hsplit
    omega
  · simp only [Cursor.skipWhile, htake, hdrop, Nat.add_assoc]
  · simp only [Cursor.skipWhile, htake, hdrop, Nat.add_assoc]
  · simp only [Cursor.takeWhile, htake]

/-- A way to a place where `stop` holds that ends inside, if `stop` says the same of twins up to
there. -/
theorem Twins.skipUntil (h : k.Twins c d) (stop : Text → Bool)
    (hlt : (c.skipUntil stop).pos < k.stop)
    (hstop : ∀ e f, k.Twins e f → c.Reaches e → e.pos ≤ (c.skipUntil stop).pos →
      stop f.rest = stop e.rest) :
    k.Twins (c.skipUntil stop) (d.skipUntil stop) ∧ d.takeUntil stop = c.takeUntil stop := by
  obtain ⟨i, t, hlen, rfl, rfl⟩ := h
  induction t generalizing i with
  | nil =>
    have hle := (Cursor.reaches_skipUntil stop ⟨k.left + i, [] ++ k.leftAfter⟩).pos_le
    unfold TwoPlaces.stop at hlt
    simp only [List.length_nil] at hlen hle
    omega
  | cons b rest ih =>
    have htwins : k.Twins ⟨k.left + i, b :: rest ++ k.leftAfter⟩
        ⟨k.right + i, b :: rest ++ k.rightAfter⟩ := ⟨i, b :: rest, hlen, rfl, rfl⟩
    have hhere := hstop _ _ htwins (.refl _) (Cursor.reaches_skipUntil stop _).pos_le
    simp only [List.cons_append] at hhere hlt hstop ⊢
    cases hs : stop (b :: (rest ++ k.leftAfter)) with
    | true =>
      rw [hs] at hhere
      simp only [Cursor.skipUntil, Cursor.takeUntil, Text.takeUntil, Text.dropUntil, hs, hhere,
        if_true, List.length_nil, Nat.add_zero, and_true]
      exact htwins
    | false =>
      rw [hs] at hhere
      -- skipping goes on one byte further on at both places
      have hstep : ∀ (n : Nat) (after : Text), stop (b :: (rest ++ after)) = false →
          (⟨n + i, b :: (rest ++ after)⟩ : Cursor).skipUntil stop =
            (⟨n + (i + 1), rest ++ after⟩ : Cursor).skipUntil stop := by
        intro n after hs
        simp only [Cursor.skipUntil, Text.takeUntil, Text.dropUntil, hs, Bool.false_eq_true,
          if_false, List.length_cons, Cursor.mk.injEq, and_true]
        omega
      have hreach : (⟨k.left + i, b :: (rest ++ k.leftAfter)⟩ : Cursor).Reaches
          ⟨k.left + (i + 1), rest ++ k.leftAfter⟩ := ⟨1, Nat.succ_le_succ (Nat.zero_le _), rfl⟩
      rw [hstep _ _ hs] at hlt hstop
      obtain ⟨h1, h2⟩ := ih (i + 1) (by simp only [List.length_cons] at hlen; omega) hlt
        fun e f hef he hle => hstop e f hef (hreach.trans he) hle
      rw [hstep _ _ hs, hstep _ _ hhere]
      refine ⟨h1, ?_⟩
      simp only [Cursor.takeUntil, Text.takeUntil, hs, hhere, Bool.false_eq_true, if_false]
      exact congrArg (b :: ·) h2

/-! ## The end of a tag -/

theorem Ends.pos_lt (h : k.Ends c) : c.pos < k.stop := by
  unfold Ends at h
  split at h <;> omega

theorem Ends.two_le (h : k.Ends c) (hs : c.startsWith [slash, rightBracket] = true) :
    c.pos + 2 ≤ k.stop := by
  unfold Ends at h
  rwa [if_pos hs] at h

/-- What is in front of the end of a tag is in front of it too. -/
theorem Ends.of_reaches (h : k.Ends d) (hreach : c.Reaches d) : k.Ends c := by
  obtain ⟨n, hn, rfl⟩ := hreach
  cases n with
  | zero => exact h
  | succ n =>
    have hlt := h.pos_lt
    have hpos : (c.advance (n + 1)).pos = c.pos + (n + 1) := rfl
    unfold Ends
    split <;> omega

/-- Whether a tag ends at a cursor, with room for one more byte in front of the end of the run. -/
theorem Twins.reached_of_le (h : k.Twins c d) (hle : c.pos + 2 ≤ k.stop) :
    Terminator.endOfTag.reached d.rest = Terminator.endOfTag.reached c.rest := by
  have hone : [rightBracket].isPrefixOf d.rest = [rightBracket].isPrefixOf c.rest :=
    h.isPrefixOf [rightBracket] (Nat.lt_of_succ_lt hle)
  have htwo : [slash, rightBracket].isPrefixOf d.rest = [slash, rightBracket].isPrefixOf c.rest :=
    h.isPrefixOf [slash, rightBracket] hle
  simp only [Terminator.reached, hone, htwo]

/-- A tag that ends here ends at the other place too, and in the same form. -/
theorem Twins.reached (h : k.Twins c d) (hends : k.Ends c)
    (hreached : Terminator.endOfTag.reached c.rest = true) :
    Terminator.endOfTag.reached d.rest = true ∧
      d.startsWith [slash, rightBracket] = c.startsWith [slash, rightBracket] := by
  cases hs : c.startsWith [slash, rightBracket] with
  | true =>
    have hd : d.startsWith [slash, rightBracket] = true :=
      (h.startsWith [slash, rightBracket] (hends.two_le hs)).trans hs
    exact ⟨Bool.or_eq_true_iff.2 (.inr hd), hd⟩
  | false =>
    have hc : c.startsWith [rightBracket] = true :=
      (Bool.or_eq_true_iff.1 hreached).resolve_right (by rw [← Cursor.startsWith, hs]; decide)
    have hd : d.startsWith [rightBracket] = true :=
      (h.startsWith [rightBracket] hends.pos_lt).trans hc
    refine ⟨Bool.or_eq_true_iff.2 (.inl hd), ?_⟩
    obtain ⟨rest, hrest⟩ := List.isPrefixOf_iff_prefix.1 hd
    rw [Cursor.startsWith, ← hrest]
    rfl

end TwoPlaces

/-! ## Arguments -/

namespace Arguments

variable {k : TwoPlaces} {c c' d : Cursor}

theorem quotedValue_of_twins (h : k.Twins c d) {quote : UInt8} {offset : Nat} {v : Text}
    (hv : quotedValue quote offset c = .ok (v, c')) (hle : c'.pos ≤ k.stop) (offset' : Nat) :
    ∃ d', quotedValue quote offset' d = .ok (v, d') ∧ k.Twins c' d' := by
  unfold quotedValue at hv
  simp only at hv
  split at hv
  · cases hv
  · cases hv
    have hlt : (c.skipWhile (· != quote)).pos < k.stop := hle
    obtain ⟨htwins, htake⟩ := h.skipWhile _ hlt
    refine ⟨(d.skipWhile (· != quote)).advance 1, ?_, htwins.advance hle⟩
    simp [quotedValue, (htwins.atEnd hlt).2, htake]

/-- Whether a bare value ends, with room for one more byte in front of the end of the run. -/
theorem endsBareValue_of_twins (h : k.Twins c d) (hle : c.pos + 2 ≤ k.stop) :
    endsBareValue .endOfTag d.rest = endsBareValue .endOfTag c.rest := by
  rw [endsBareValue, endsBareValue, h.head? (by omega), h.reached_of_le hle]

/-- A bare value that ends here ends at the other place too. -/
theorem endsBareValue_of_ends (h : k.Twins c d) (hends : k.Ends c)
    (hc : endsBareValue .endOfTag c.rest = true) : endsBareValue .endOfTag d.rest = true := by
  have hhead := h.head? hends.pos_lt
  rcases Bool.or_eq_true_iff.1 hc with hseparator | hreached
  · exact Bool.or_eq_true_iff.2 (.inl (by rw [hhead, hseparator]))
  · exact Bool.or_eq_true_iff.2 (.inr (h.reached hends hreached).1)

theorem value_of_twins (h : k.Twins c d) {v : Text} (hv : value .endOfTag c = .ok (v, c'))
    (hends : k.Ends c') : ∃ d', value .endOfTag d = .ok (v, d') ∧ k.Twins c' d' := by
  have hlt := (hends.of_reaches (reaches_of_value hv)).pos_lt
  unfold value at hv ⊢
  rw [h.peek? hlt]
  cases hb : c.peek? with
  | none => exact absurd (by simpa [Cursor.peek?] using hb) (h.rest_ne_nil hlt)
  | some b =>
    rw [hb] at hv
    simp only at hv ⊢
    split at hv
    · rename_i hquote
      rw [if_pos hquote]
      exact quotedValue_of_twins (h.advance hlt) hv (Nat.le_of_lt hends.pos_lt) _
    · rename_i hquote
      rw [if_neg hquote]
      cases hv
      have hreach := Cursor.reaches_skipUntil (endsBareValue .endOfTag) c
      obtain ⟨htwins, htake⟩ := h.skipUntil (endsBareValue .endOfTag) hends.pos_lt (by
        intro e f hef he hle
        rcases Nat.lt_or_eq_of_le hle with hlt' | heq
        · exact endsBareValue_of_twins hef (by have := hends.pos_lt; omega)
        · cases he.eq_of_pos hreach heq
          have hstop := Text.stop_dropUntil (endsBareValue .endOfTag) (hef.rest_ne_nil hends.pos_lt)
          exact (endsBareValue_of_ends hef hends hstop).trans hstop.symm)
      exact ⟨_, by rw [htake], htwins⟩

/-- What follows the spaces behind a key lies in front of what follows the separators. -/
theorem skipSpace_pos_le (c : Cursor) :
    (c.skipWhile isSpace).pos ≤ (c.skipWhile isSeparator).pos := by
  refine Nat.add_le_add_left ?_ _
  induction c.rest with
  | nil => exact Nat.le_refl _
  | cons b rest ih =>
    by_cases hb : isSpace b = true
    · have hb' : isSeparator b = true := Bool.or_eq_true_iff.2 (.inl hb)
      rw [List.takeWhile_cons_of_pos hb, List.takeWhile_cons_of_pos hb']
      exact Nat.succ_le_succ ih
    · rw [List.takeWhile_cons_of_neg hb]
      exact Nat.zero_le _

theorem entry_of_twins (h : k.Twins c d) {e : Text × Text} (he : entry .endOfTag c = .ok (e, c'))
    (hends : k.Ends (c'.skipWhile isSeparator)) :
    ∃ d', entry .endOfTag d = .ok (e, d') ∧ k.Twins c' d' := by
  have hends' := hends.of_reaches (Cursor.reaches_skipWhile isSeparator c')
  have hlt := (hends'.of_reaches (reaches_of_entry he)).pos_lt
  unfold entry at he ⊢
  rw [h.peek? hlt]
  cases hb : c.peek? with
  | none => exact absurd (by simpa [Cursor.peek?] using hb) (h.rest_ne_nil hlt)
  | some b =>
    rw [hb] at he
    simp only at he ⊢
    split at he
    · cases he
    · rename_i hkey
      have hkeyReach := Cursor.reaches_skipWhile isKeyByte c
      have hspaceReach := Cursor.reaches_skipWhile isSpace (c.skipWhile isKeyByte)
      split at he
      · rename_i hsign
        cases hv : value .endOfTag
            ((((c.skipWhile isKeyByte).skipWhile isSpace).advance 1).skipWhile isSpace) with
        | error e => rw [hv] at he; cases he
        | ok p =>
          obtain ⟨v, after⟩ := p
          rw [hv] at he
          cases he
          have hvalue := hends'.of_reaches (reaches_of_value hv)
          have hnext := hvalue.of_reaches (Cursor.reaches_skipWhile isSpace _)
          have hsignEnds := hnext.of_reaches (Cursor.reaches_next (Cursor.rest_ne_nil hsign))
          obtain ⟨h1, htake⟩ := h.skipWhile isKeyByte (hsignEnds.of_reaches hspaceReach).pos_lt
          obtain ⟨h2, -⟩ := h1.skipWhile isSpace hsignEnds.pos_lt
          obtain ⟨h3, -⟩ := (h2.advance hsignEnds.pos_lt).skipWhile isSpace hvalue.pos_lt
          obtain ⟨d', hd, htwins⟩ := value_of_twins h3 hv hends'
          refine ⟨d', ?_, htwins⟩
          rw [htake, if_neg hkey, h2.peek? hsignEnds.pos_lt, if_pos hsign, hd]
          rfl
      · rename_i hsign
        cases he
        have hspace := Nat.lt_of_le_of_lt (skipSpace_pos_le (c.skipWhile isKeyByte)) hends.pos_lt
        obtain ⟨h1, htake⟩ := h.skipWhile isKeyByte hends'.pos_lt
        obtain ⟨h2, -⟩ := h1.skipWhile isSpace hspace
        refine ⟨_, ?_, h1⟩
        rw [htake, if_neg hkey, h2.peek? hspace, if_neg hsign]

/-- The separators in front of a list are skipped first. -/
theorem reaches_of_separators {stop : Terminator} {args args' : Arguments}
    (hread : readInto stop args c = .ok (args', d)) : (c.skipWhile isSeparator).Reaches d := by
  rw [readInto] at hread
  simp only at hread
  split at hread
  · cases hread
    exact .refl _
  · split at hread
    · cases hread
    · rename_i after he
      exact (reaches_of_entry he).trans (reaches_of_readInto hread).1

theorem readInto_of_twins (h : k.Twins c d) {args args' : Arguments}
    (hread : readInto .endOfTag args c = .ok (args', c')) (hends : k.Ends c') :
    ∃ d', readInto .endOfTag args d = .ok (args', d') ∧ k.Twins c' d' := by
  induction hn : c.rest.length using Nat.strongRecOn generalizing c d args with
  | _ n ih =>
    subst hn
    have hfirst := hends.of_reaches (reaches_of_separators hread)
    obtain ⟨htwins, -⟩ := h.skipWhile isSeparator hfirst.pos_lt
    rw [readInto] at hread ⊢
    simp only at hread ⊢
    split at hread
    · rename_i hreached
      cases hread
      exact ⟨_, by rw [if_pos (htwins.reached hends hreached).1], htwins⟩
    · rename_i hreached
      split at hread
      · cases hread
      · rename_i key value after he
        have hafter := hends.of_reaches (reaches_of_separators hread)
        have hlt := length_entry_lt he
        -- the entry holds a byte, so there is room behind the cursor in front of it
        have hpos : (c.skipWhile isSeparator).pos + 2 ≤ k.stop := by
          have hmoved := (reaches_of_entry he).pos_lt hlt
          have hend := (hends.of_reaches (reaches_of_readInto hread).1).pos_lt
          omega
        obtain ⟨after', he', hafterTwins⟩ := entry_of_twins htwins he hafter
        obtain ⟨d', hd, hd'⟩ := ih _ (Nat.lt_of_lt_of_le hlt (Cursor.length_skipWhile_le _ _))
          hafterTwins hread rfl
        refine ⟨d', ?_, hd'⟩
        rw [if_neg (by rwa [htwins.reached_of_le hpos])]
        split
        · rename_i e he''
          rw [he'] at he''
          cases he''
        · rename_i he''
          rw [he'] at he''
          cases he''
          exact hd

end Arguments

/-! ## Tags -/

namespace Bracket

/-- The tag at the right place for one at the left place. -/
def moved (k : TwoPlaces) (b : Bracket) : Bracket := { b with span := k.move b.span }

variable {k : TwoPlaces} {context : Context} {c c' d : Cursor} {b : Bracket}

/-- A name ends where a bare value would. -/
theorem nameEnds_eq (rest : Text) : nameEnds rest = Arguments.endsBareValue .endOfTag rest := by
  cases rest with
  | nil => rfl
  | cons b rest =>
    have hfirst : [rightBracket].isPrefixOf (b :: rest) = (b == rightBracket) := by
      rw [Bool.eq_iff_iff, List.isPrefixOf_iff_prefix, List.cons_prefix_cons, beq_iff_eq, eq_comm]
      exact and_iff_left List.nil_prefix
    simp [nameEnds, Arguments.endsBareValue, Terminator.reached, Bool.or_assoc, hfirst]

theorem nameEnds_of_twins (h : k.Twins c d) (hends : k.Ends c) (hc : nameEnds c.rest = true) :
    nameEnds d.rest = true := by
  rw [nameEnds_eq] at hc ⊢
  exact Arguments.endsBareValue_of_ends h hends hc

theorem readClosing_of_twins (h : k.Twins c d) {start : Nat}
    (hread : readClosing context start c = some (b, c')) (hle : c'.pos ≤ k.stop) (start' : Nat) :
    ∃ d', readClosing context start' d = some ({ b with span := ⟨start', d'.pos⟩ }, d') ∧
      k.Twins c' d' := by
  unfold readClosing at hread
  simp only at hread
  split at hread
  · cases hread
  · rename_i hname
    cases hread
    obtain ⟨htwins, htake⟩ := h.skipWhile isNameByte hle
    refine ⟨_, ?_, htwins.advance hle⟩
    have hstarts : (d.skipWhile isNameByte).startsWith [rightBracket] =
      (c.skipWhile isNameByte).startsWith [rightBracket] := htwins.startsWith [rightBracket] hle
    simp only [readClosing, htake, hstarts]
    rw [if_neg hname]

theorem readOpening_of_twins (h : k.Twins c d) {start : Nat}
    (hread : readOpening context start c = some (b, c')) (hle : c'.pos ≤ k.stop) (start' : Nat) :
    ∃ d', readOpening context start' d = some ({ b with span := ⟨start', d'.pos⟩ }, d') ∧
      k.Twins c' d' := by
  unfold readOpening at hread
  simp only at hread
  split at hread
  · cases hread
  · rename_i hname
    split at hread
    · cases hread
    · rename_i arguments stop hargs
      cases hread
      have hends : k.Ends stop := hle
      obtain ⟨hreach, hreached⟩ := Arguments.reaches_of_readInto hargs
      have hnameEnds := hends.of_reaches hreach
      obtain ⟨hafterName, htake⟩ := h.skipWhile isNameByte hnameEnds.pos_lt
      obtain ⟨stop', hargs', hstop⟩ := Arguments.readInto_of_twins hafterName hargs hends
      obtain ⟨-, hform⟩ := hstop.reached hends hreached
      refine ⟨stop'.advance (if stop.startsWith [slash, rightBracket] then 2 else 1), ?_,
        hstop.advance hle⟩
      simp only [Bool.or_eq_true, Bool.not_eq_true', not_or, Bool.not_eq_false] at hname
      have hname' : ¬ ((d.takeWhile isNameByte).isEmpty ||
          !nameEnds (d.skipWhile isNameByte).rest) = true := by
        simp [htake, hname.1, nameEnds_of_twins hafterName hnameEnds hname.2]
      simp only [readOpening, Arguments.read, hargs', hform]
      rw [if_neg hname', htake]

theorem two_le_of_readSingle (hread : readSingle? context c = some (b, c')) :
    c.pos + 2 ≤ c'.pos := by
  have hlt := length_readSingle_lt hread
  have hne : c.rest ≠ [] := List.length_pos_iff.1 (Nat.zero_lt_of_lt hlt)
  unfold readSingle? at hread
  simp only at hread
  split at hread
  · exact (reaches_of_readClosing hread).1.pos_le
  · exact (reaches_of_readOpening hread).1.pos_lt (length_readOpening_lt hread)

theorem readSingle_of_twins (h : k.Twins c d) (hread : readSingle? context c = some (b, c'))
    (hle : c'.pos ≤ k.stop) : ∃ d', readSingle? context d = some (b.moved k, d') ∧
      b.span = c.spanTo c' ∧ k.Twins c' d' := by
  have htwo := two_le_of_readSingle hread
  have hne := h.rest_ne_nil (by omega)
  have hspan := (readFrom_of_readSingle hne hread).2.1
  suffices ∃ d', readSingle? context d = some ({ b with span := ⟨d.pos, d'.pos⟩ }, d') ∧
      k.Twins c' d' by
    obtain ⟨d', hd, htwins⟩ := this
    refine ⟨d', ?_, hspan, htwins⟩
    have hmove : k.move b.span = ⟨d.pos, d'.pos⟩ := hspan ▸ (h.spanTo htwins).symm
    rw [hd, moved, hmove]
  have hinner := h.advance (n := 1) (by omega)
  have hroom : (c.advance 1).pos + 1 ≤ k.stop := Nat.le_trans htwo hle
  have hslash := hinner.startsWith [slash] hroom
  unfold readSingle? at hread ⊢
  simp only at hread ⊢
  rw [hslash]
  split at hread
  · rename_i hs
    rw [if_pos hs]
    exact readClosing_of_twins (hinner.advance hroom) hread hle _
  · rename_i hs
    rw [if_neg hs]
    exact readOpening_of_twins hinner hread hle _

/-- **A tag at two places.**  A tag that ends inside the run is read at the other place as well.
Whether a `]` follows it may differ, so the cursor `e` in front of that is what has a twin. -/
theorem read_of_twins (h : k.Twins c d) (hread : read? context c = some (b, c'))
    (hle : b.span.stop ≤ k.stop) : ∃ e e', k.Twins e e' ∧ e.pos = b.span.stop ∧
      b.trail = e.startsWith [rightBracket] ∧ c' = e.advance b.trail.toNat ∧
      read? context d = some ({ b.moved k with trail := e'.startsWith [rightBracket] },
        e'.advance (e'.startsWith [rightBracket]).toNat) := by
  unfold read? at hread
  simp only at hread
  generalize hlead : (c.peekAt? 1 == some leftBracket) = lead at hread
  have hcursor : ∀ c : Cursor, (if lead = true then c.advance 1 else c) = c.advance lead.toNat := by
    intro c
    cases lead <;> rfl
  split at hread
  · cases hread
  · rename_i b' e hsingle
    cases hread
    rw [hcursor] at hsingle
    have htwo : c.pos + lead.toNat + 2 ≤ e.pos := two_le_of_readSingle hsingle
    have hstop : b'.span.stop = e.pos := by
      have hlt := length_readSingle_lt hsingle
      have hne := List.length_pos_iff.1 (Nat.zero_lt_of_lt hlt)
      rw [(readFrom_of_readSingle hne hsingle).2.1]
      rfl
    simp only [hstop] at hle
    have hfirst := h.advance (n := lead.toNat) (by omega)
    obtain ⟨e', hsingle', -, htwins⟩ := readSingle_of_twins hfirst hsingle hle
    have hlead' : (d.peekAt? 1 == some leftBracket) = lead := by
      rw [← hlead, Cursor.peekAt?, Cursor.peekAt?, h.getElem? (by omega)]
    refine ⟨e, e', htwins, hstop.symm, rfl, ?_, ?_⟩
    · cases e.startsWith [rightBracket] <;> rfl
    · unfold read?
      simp only [hlead', hcursor, hsingle']
      cases e'.startsWith [rightBracket] <;> rfl

/-- A tag with room behind it is the same at the other place. -/
theorem read_inside_of_twins (h : k.Twins c d) (hread : read? context c = some (b, c'))
    (hlt : c'.pos < k.stop) :
    ∃ d', read? context d = some (b.moved k, d') ∧ k.Twins c' d' := by
  have hstop := (readFrom_of_read hread).stop_eq
  obtain ⟨e, e', htwins, hpos, htrail, rfl, hread'⟩ := read_of_twins h hread (by omega)
  have hsame : e'.startsWith [rightBracket] = b.trail := by
    rw [htrail]
    refine htwins.startsWith [rightBracket] ?_
    show e.pos + 1 ≤ k.stop
    omega
  rw [hsame] at hread'
  exact ⟨_, hread', htwins.advance (by omega)⟩

end Bracket

end Shortcode
