import Shortcode.Proofs.ValidText
import Shortcode.Toml.Reader

/-!
# What is read from strings is made of strings

A reader is given a valid text and gives back something and the text after it.  `Sound read P` says
that both are as they should be: `P` holds of what is read and the rest is valid.  The readers go
over bytes, so in the middle of a string the bytes read so far belong to the statement: put in front
of what is left they are valid, and put in front of what is read from it they are, too.

    t.IsValid → document? t = some v → v.IsValid                         (isValid_of_document?)
-/

namespace Shortcode.Toml

open Byte

/-- From a valid text, something with `P` is read and a valid text is left. -/
def Sound {α : Type} (read : Text → Option (α × Text)) (P : α → Prop) : Prop :=
  ∀ ⦃t : Text⦄ ⦃x : α⦄ ⦃rest : Text⦄, t.IsValid → read t = some (x, rest) → P x ∧ rest.IsValid

/-! ## Bytes -/

theorem isAscii_of_isWhitespace : ∀ b, isWhitespace b = true → isAscii b = true := by
  grind [isWhitespace, isAscii]

theorem isAscii_of_not_isPlain : ∀ b, isPlain b = false → isAscii b = true := by
  grind [isPlain, isAscii]

theorem isAscii_of_isBareKeyByte : ∀ b, isBareKeyByte b = true → isAscii b = true := by
  grind [isBareKeyByte, isAlphanumeric, isLetter, isDigit, isAscii]

theorem isAscii_of_not_isWordByte : ∀ b, isWordByte b = false → isAscii b = true :=
  forall_of_table (by decide +kernel)

/-- The byte behind the backslash and the byte that the two stand for. -/
theorem isAscii_of_shortEscape {b c : UInt8} (h : shortEscapes.lookup b = some c) :
    isAscii b = true ∧ isAscii c = true := by
  have htable : ∀ b, (shortEscapes.lookup b).all (fun c => isAscii b && isAscii c) = true :=
    forall_of_table (by decide +kernel)
  have hb := htable b
  rw [h] at hb
  exact Bool.and_eq_true_iff.1 hb

theorem isAscii_of_codePointEscape {b : UInt8} {count : Nat}
    (h : codePointEscapes.lookup b = some count) : isAscii b = true := by
  have htable : ∀ b, (codePointEscapes.lookup b).all (fun _ => isAscii b) = true :=
    forall_of_table (by decide +kernel)
  have hb := htable b
  rwa [h] at hb

theorem isAscii_of_digit :
    ∀ b, (CharacterReference.digit? 16 b).isSome = true → isAscii b = true := by
  grind [CharacterReference.digit?, isDigit, isLetter, isAscii]

theorem isAscii_of_isLineEnd {b : UInt8} {rest : Text} (h : isLineEnd b rest = true) :
    isAscii b = true := by
  rw [isLineEnd, Bool.or_eq_true, Bool.and_eq_true, beq_iff_eq, beq_iff_eq] at h
  rcases h with rfl | ⟨rfl, -⟩ <;> rfl

/-! ## Escapes -/

theorem isAscii_of_number {ds : Text} {n : Nat} (h : CharacterReference.number? 16 ds = some n) :
    ∀ b ∈ ds, isAscii b = true := by
  have hfold : ∀ (ds : Text) (m : Nat), (ds.foldlM (fun n b =>
      (CharacterReference.digit? 16 b).map (n * 16 + ·)) m).isSome = true →
        ∀ b ∈ ds, isAscii b = true := by
    intro ds
    induction ds with
    | nil => exact fun _ _ => nofun
    | cons d ds ih =>
      intro m hm
      rw [List.foldlM_cons] at hm
      cases hd : CharacterReference.digit? 16 d with
      | none =>
        rw [hd] at hm
        cases hm
      | some k =>
        rw [hd] at hm
        exact List.forall_mem_cons.2 ⟨isAscii_of_digit d (by rw [hd]; rfl), ih _ hm⟩
  rw [CharacterReference.number?] at h
  split at h
  · cases h
  · exact hfold ds 0 (by rw [h]; rfl)

theorem sound_codePoint (count : Nat) : Sound (codePoint? count) Text.IsValid := by
  intro t s rest ht h
  rw [codePoint?] at h
  split at h
  · split at h
    · rename_i n hnumber
      split at h
      · cases h
        refine ⟨Text.isValid_encode _, Text.IsValid.drop_ascii ?_ (isAscii_of_number hnumber)⟩
        rwa [List.take_append_drop]
      · cases h
    · cases h
  · cases h

theorem sound_escape : Sound escape? Text.IsValid := by
  intro t s rest ht h
  cases t with
  | nil => cases h
  | cons b t =>
    rw [escape?] at h
    split at h
    · rename_i c hc
      cases h
      obtain ⟨hb, hascii⟩ := isAscii_of_shortEscape hc
      exact ⟨Text.isValid_singleton hascii, ht.tail hb⟩
    · obtain ⟨count, hcount, h⟩ := Option.bind_eq_some_iff.1 h
      exact sound_codePoint count (ht.tail (isAscii_of_codePointEscape hcount)) h

/-! ## Strings -/

theorem isValid_basic {a t s rest : Text} (h : Text.IsValid (a ++ t))
    (hread : basic? t = some (s, rest)) : Text.IsValid (a ++ s) ∧ rest.IsValid := by
  fun_induction basic? t generalizing a s with
  | case1 => cases hread
  | case2 t =>
    cases hread
    rw [List.append_nil]
    exact h.cut_around rfl
  | case3 => cases hread
  | case4 t s' after hescape _ _ ih =>
    obtain ⟨⟨more, stop⟩, hmore, heq⟩ := Option.map_eq_some_iff.1 hread
    cases heq
    obtain ⟨ha, ht⟩ := h.cut_around rfl
    obtain ⟨hs, hafter⟩ := sound_escape ht hescape
    rw [← List.append_assoc]
    exact ih ((ha.append hs).append hafter) hmore
  | case5 b t _ _ _ ih =>
    obtain ⟨⟨more, stop⟩, hmore, heq⟩ := Option.map_eq_some_iff.1 hread
    cases heq
    rw [List.append_cons] at h ⊢
    exact ih h hmore
  | case6 => cases hread

theorem sound_basic : Sound basic? Text.IsValid := fun _ _ _ ht h => isValid_basic (a := []) ht h

theorem sound_literal : Sound literal? Text.IsValid := by
  intro t s rest ht h
  have hstop : ∀ b, (isPlain b && b != singleQuote) = false → isAscii b = true := by
    grind [isPlain, isAscii]
  obtain ⟨hrun, hafter⟩ := ht.cut_run hstop
  rw [literal?] at h
  split at h
  · cases h
  · rename_i b after hb
    split at h
    · rename_i hquote
      cases h
      rw [hb] at hafter
      exact ⟨hrun, hafter.tail (by rw [hquote]; rfl)⟩
    · cases h

/-! ## Strings over several lines -/

section

variable {t rest : Text}

theorem isValid_newline (ht : t.IsValid) (h : newline? t = some rest) : rest.IsValid := by
  cases t with
  | nil => cases h
  | cons b t =>
    simp only [newline?] at h
    split at h
    · rename_i hb
      cases h
      exact ht.tail (by rw [hb]; rfl)
    · split at h
      · rename_i hb
        rw [Bool.and_eq_true, decide_eq_true_iff, beq_iff_eq] at hb
        obtain ⟨hb, hhead⟩ := hb
        cases h
        have htail := ht.tail (by rw [hb]; rfl)
        cases t with
        | nil => cases hhead
        | cons c t =>
          cases hhead
          exact htail.tail rfl
      · cases h

theorem isValid_skipNewline (ht : t.IsValid) : (skipNewline t).IsValid := by
  rw [skipNewline]
  cases hline : newline? t with
  | none => exact ht
  | some rest => exact isValid_newline ht hline

theorem isValid_skipLines (ht : t.IsValid) : (skipLines t).IsValid := by
  fun_induction skipLines t with
  | case1 => exact Text.isValid_nil
  | case2 b t hb ih =>
    rw [Bool.or_eq_true] at hb
    exact ih (ht.tail (hb.elim (isAscii_of_isWhitespace b) isAscii_of_isLineEnd))
  | case3 => exact ht

theorem isValid_joinedLine (ht : t.IsValid) (h : joinedLine? t = some rest) : rest.IsValid := by
  obtain ⟨after, hafter, rfl⟩ := Option.map_eq_some_iff.1 h
  exact isValid_skipLines
    (isValid_newline (ht.cut_asciiRun isAscii_of_isWhitespace).2 hafter)

end

section

variable {a t s rest : Text}

theorem isValid_closing {quote : UInt8} (hquote : isAscii quote = true)
    (h : Text.IsValid (a ++ t)) (hread : closing? quote t = some (s, rest)) :
    Text.IsValid (a ++ s) ∧ rest.IsValid := by
  simp only [closing?] at hread
  have hascii : ∀ b ∈ (t.take 5).takeWhile (· == quote), isAscii b = true := by
    intro b hb
    have heq : (b == quote) = true := List.mem_takeWhile_imp (p := (· == quote)) hb
    rwa [beq_iff_eq.1 heq]
  obtain ⟨after, ht⟩ : ((t.take 5).takeWhile (· == quote)) <+: t :=
    (List.takeWhile_prefix _).trans (List.take_prefix 5 t)
  generalize (t.take 5).takeWhile (· == quote) = run at hread hascii ht
  split at hread
  · cases hread
  · rename_i hlength
    cases hread
    rw [← ht] at h
    rw [← ht, List.drop_left]
    obtain ⟨ha, hrest⟩ := h.cut (t := run ++ after) (by
      intro b hb
      cases run with
      | nil => exact absurd (show 0 < 3 by decide) hlength
      | cons c run => exact hascii b (by cases hb; exact List.mem_cons_self))
    exact ⟨ha.append (Text.isValid_of_isAscii fun b hb => hascii b (List.mem_of_mem_drop hb)),
      hrest.drop_ascii hascii⟩

theorem isValid_longLiteral (h : Text.IsValid (a ++ t))
    (hread : longLiteral? t = some (s, rest)) : Text.IsValid (a ++ s) ∧ rest.IsValid := by
  fun_induction longLiteral? t generalizing a s with
  | case1 t closed hclosing =>
    cases hread
    exact isValid_closing rfl h hclosing
  | case2 => cases hread
  | case3 b t hclosing _ ih =>
    obtain ⟨⟨more, stop⟩, hmore, heq⟩ := Option.map_eq_some_iff.1 hread
    cases heq
    rw [List.append_cons] at h ⊢
    exact ih h hmore
  | case4 => cases hread

theorem isValid_longBasic (h : Text.IsValid (a ++ t))
    (hread : longBasic? t = some (s, rest)) : Text.IsValid (a ++ s) ∧ rest.IsValid := by
  fun_induction longBasic? t generalizing a s with
  | case1 t closed hclosing =>
    cases hread
    exact isValid_closing rfl h hclosing
  | case2 => cases hread
  | case3 t after hjoined _ hclosing ih =>
    obtain ⟨ha, ht⟩ := h.cut_around rfl
    exact ih (ha.append (isValid_joinedLine ht hjoined)) hread
  | case4 => cases hread
  | case5 t _ s' after hescape _ hclosing ih =>
    obtain ⟨⟨more, stop⟩, hmore, heq⟩ := Option.map_eq_some_iff.1 hread
    cases heq
    obtain ⟨ha, ht⟩ := h.cut_around rfl
    obtain ⟨hs, hafter⟩ := sound_escape ht hescape
    rw [← List.append_assoc]
    exact ih ((ha.append hs).append hafter) hmore
  | case6 b t _ _ _ ih =>
    obtain ⟨⟨more, stop⟩, hmore, heq⟩ := Option.map_eq_some_iff.1 hread
    cases heq
    rw [List.append_cons] at h ⊢
    exact ih h hmore
  | case7 => cases hread

end

/-- A text behind a prefix of ASCII bytes. -/
theorem isValid_drop_of_isPrefixOf {pre t : Text} (hpre : pre.all isAscii = true)
    (ht : t.IsValid) (h : pre.isPrefixOf t = true) : Text.IsValid (t.drop pre.length) := by
  obtain ⟨rest, rfl⟩ := List.isPrefixOf_iff_prefix.1 h
  rw [List.drop_left]
  exact ht.drop_ascii (List.all_eq_true.1 hpre)

theorem sound_string : Sound string? Text.IsValid := by
  intro t s rest ht h
  rw [string?] at h
  split at h
  · rename_i hquotes
    have hafter := isValid_skipNewline
      (isValid_drop_of_isPrefixOf (by decide) ht hquotes)
    exact isValid_longBasic (a := []) hafter h
  · split at h
    · rename_i hquotes
      have hafter := isValid_skipNewline
        (isValid_drop_of_isPrefixOf (by decide) ht hquotes)
      exact isValid_longLiteral (a := []) hafter h
    · split at h
      · rename_i hquote
        exact sound_basic (isValid_drop_of_isPrefixOf (by decide) ht hquote) h
      · split at h
        · rename_i hquote
          exact sound_literal (isValid_drop_of_isPrefixOf (by decide) ht hquote) h
        · cases h

/-! ## Keys -/

theorem sound_keyPart : Sound keyPart? Text.IsValid := by
  intro t s rest ht h
  rw [keyPart?] at h
  split at h
  · rename_i hquote
    exact sound_basic (isValid_drop_of_isPrefixOf (by decide) ht hquote) h
  · split at h
    · rename_i hquote
      exact sound_literal (isValid_drop_of_isPrefixOf (by decide) ht hquote) h
    · simp only at h
      split at h
      · cases h
      · cases h
        exact ht.cut_asciiRun isAscii_of_isBareKeyByte

/-- The parts of a key are strings. -/
def KeyIsValid (key : List Text) : Prop := ∀ part ∈ key, part.IsValid

theorem sound_keyParts (fuel : Nat) : Sound (keyParts? fuel) KeyIsValid := by
  induction fuel with
  | zero => exact fun _ _ _ _ h => nomatch h
  | succ fuel ih =>
    intro t key rest ht h
    rw [keyParts?] at h
    obtain ⟨⟨part, after⟩, hpart, h⟩ := Option.bind_eq_some_iff.1 h
    obtain ⟨hvalid, hafter⟩ :=
      sound_keyPart (ht.cut_asciiRun isAscii_of_isWhitespace).2 hpart
    have hstop := (hafter.cut_asciiRun isAscii_of_isWhitespace).2
    simp only at h
    split at h
    · rename_i b more hb
      split at h
      · rename_i hdot
        obtain ⟨⟨parts, stop⟩, hparts, heq⟩ := Option.bind_eq_some_iff.1 h
        cases heq
        rw [hb] at hstop
        obtain ⟨hmore, hrest⟩ := ih (hstop.tail (by rw [hdot]; rfl)) hparts
        exact ⟨List.forall_mem_cons.2 ⟨hvalid, hmore⟩, hrest⟩
      · cases h
        exact ⟨List.forall_mem_singleton.2 hvalid, hb ▸ hstop⟩
    · cases h
      exact ⟨List.forall_mem_singleton.2 hvalid, hstop⟩

end Shortcode.Toml
