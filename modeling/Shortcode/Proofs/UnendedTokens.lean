import Mathlib.Data.List.TakeWhile
import Shortcode.Proofs.WrittenTags

/-!
# Tokens without an end

A `<` that is followed by `!`, `?`, a letter, or a slash and a letter starts a token.  None is read
there only if the text ends in front of the `>` that would end it.  `Token.Unended` says so with a
grammar: a start tag stays open as long as attributes follow one another, or if a `=` has no value
or a quote does not come again.

    c.peek? = some less → (read? c = none ↔ ¬ Starts c.rest ∨ Unended c.rest)   (read_eq_none_iff)
-/

namespace Shortcode

open Byte
open Text (Breaks breaks_nil breaks_cons breaks_dropWhile)
open Arguments (Assigns)

/-! ## Grammar -/

namespace Attribute

/-- The name of an attribute.  Its first byte may also be a `=`. -/
inductive IsName : Text → Prop
  | mk {first : UInt8} {more : Text} : isSpace first = false → first ≠ slash → first ≠ greater →
      (∀ b ∈ more, isAttributeNameByte b = true) → IsName (first :: more)

/-- What stands behind a `=` if the text ends in front of the value or in it. -/
inductive OpenValue : Text → Prop
  | nil : OpenValue []
  | quoted {quote : UInt8} {content : Text} : isQuote quote = true → quote ∉ content →
      OpenValue (quote :: content)

/-- A text that stands in a start tag and does not end the tag. -/
inductive Unended : Text → Prop
  | nil : Unended []
  | space {b : UInt8} {rest : Text} : isSpace b = true → Unended rest → Unended (b :: rest)
  | slash {rest : Text} : rest.head? ≠ some greater → Unended rest → Unended (slash :: rest)
  | flag {name rest : Text} : IsName name → Breaks isAttributeNameByte rest → ¬ Assigns rest →
      Unended rest → Unended (name ++ rest)
  | assignment {name rest : Text} (s : Assignment) : IsName name → s.value.Before rest →
      Unended rest → Unended (name ++ (s.text ++ rest))
  | openValue {name before after value : Text} : IsName name → before.IsBlankRun →
      after.IsBlankRun → OpenValue value → Unended (name ++ (before ++ equals :: (after ++ value)))

end Attribute

namespace Token

/-- The text starts as a token does. -/
inductive Starts : Text → Prop
  | declaration {b : UInt8} {rest : Text} : b = bang ∨ b = question → Starts (less :: b :: rest)
  | finish {b : UInt8} {rest : Text} : isLetter b = true → Starts (less :: slash :: b :: rest)
  | start {b : UInt8} {rest : Text} : isLetter b = true → Starts (less :: b :: rest)

/-- The text starts as a token does and holds no end of it.  A comment ends with the text at the
latest, so none is unended. -/
inductive Unended : Text → Prop
  | declaration {b : UInt8} {rest : Text} : b = bang ∨ b = question →
      ¬ (b = bang ∧ [hyphen, hyphen] <+: rest) → greater ∉ rest → Unended (less :: b :: rest)
  | finish {b : UInt8} {rest : Text} : isLetter b = true → greater ∉ rest →
      Unended (less :: slash :: b :: rest)
  | start {b : UInt8} {more rest : Text} : isLetter b = true →
      (∀ x ∈ more, isElementNameByte x = true) → Breaks isElementNameByte rest →
      Attribute.Unended rest → Unended (less :: b :: (more ++ rest))

end Token

/-! ## Values -/

namespace Attribute

variable {b : UInt8} {t name before after rest : Text}

theorem OpenValue.readValue?_eq_none (h : OpenValue t) (pos : Nat) :
    readValue? ⟨pos, t⟩ = none := by
  cases h with
  | nil => rfl
  | @quoted quote content hquote hnot =>
    have hinside : ∀ x ∈ content, (x != quote) = true := by
      intro x hx
      simpa using fun he : x = quote => hnot (he ▸ hx)
    have hlast : (Cursor.mk (pos + 1) content).skipWhile (· != quote) =
        ⟨pos + 1 + content.length, []⟩ := by
      have hrun : (Cursor.mk (pos + 1) (content ++ [])).skipWhile (· != quote) =
          ⟨pos + 1 + content.length, []⟩ := Cursor.skipWhile_run hinside breaks_nil
      rwa [List.append_nil] at hrun
    rw [readValue?]
    simp only [Cursor.peek?, Cursor.advance, List.head?_cons, List.drop_succ_cons, List.drop_zero,
      hquote, if_true, hlast, Cursor.atEnd, List.isEmpty_nil]

theorem OpenValue.breaks_isSpace (h : OpenValue t) : Breaks isSpace t := by
  cases h with
  | nil => exact breaks_nil
  | quoted hquote _ => exact breaks_cons (of_isQuote _ hquote).2.1

/-- A text behind a `=` is open, ends the tag, or starts with a value. -/
theorem value_cases (h : Breaks isSpace t) : OpenValue t ∨ (∃ rest, t = greater :: rest) ∨
    ∃ (v : WrittenValue) (rest : Text), v.Before rest ∧ t = v.text ++ rest := by
  cases t with
  | nil => exact .inl .nil
  | cons b t =>
    have hspace : isSpace b = false := h b rfl
    by_cases hquote : isQuote b = true
    · by_cases hclosed : b ∈ t
      · obtain ⟨content, rest, rfl, hcontent⟩ := List.eq_append_cons_of_mem hclosed
        exact .inr (.inr ⟨.quoted b content hquote hcontent, rest, trivial,
          by simp [WrittenValue.text]⟩)
      · exact .inl (.quoted hquote hclosed)
    · by_cases hgreater : b = greater
      · exact .inr (.inl ⟨t, by rw [hgreater]⟩)
      · have hfirst : isUnquotedValueByte b = true := by
          simp [isUnquotedValueByte, hspace, hgreater]
        have hrun : ∀ x ∈ b :: t.takeWhile isUnquotedValueByte, isUnquotedValueByte x = true :=
          List.forall_mem_cons.2 ⟨hfirst, fun x hx => List.mem_takeWhile_imp hx⟩
        refine .inr (.inr ⟨.bare (b :: t.takeWhile isUnquotedValueByte) (by simp) hrun
          (breaks_cons (by simpa using hquote)), t.dropWhile isUnquotedValueByte,
          breaks_dropWhile _ _, ?_⟩)
        simp [WrittenValue.text]

/-! ## Attributes -/

theorem readAll?_space (hb : isSpace b = true) (pos : Nat) :
    readAll? ⟨pos, b :: t⟩ = readAll? ⟨pos + 1, t⟩ := by
  have hskip : (Cursor.mk pos (b :: t)).skipWhile isSpace =
      (Cursor.mk (pos + 1) t).skipWhile isSpace := by
    simp only [Cursor.skipWhile, List.takeWhile_cons_of_pos hb, List.dropWhile_cons_of_pos hb,
      List.length_cons, Cursor.mk.injEq, and_true]
    omega
  cases hrest : ((Cursor.mk (pos + 1) t).skipWhile isSpace).rest with
  | nil => rw [readAll?_of_nil hrest, readAll?_of_nil (hskip ▸ hrest)]
  | cons x rest => rw [readAll?_of_rest hrest, readAll?_of_rest (hskip ▸ hrest), hskip]

/-- What the first byte makes of a tag, if it is not white space. -/
theorem readAll?_cons (hb : isSpace b = false) (pos : Nat) (t : Text) :
    readAll? ⟨pos, b :: t⟩ =
      if b = greater then some ([], false, ⟨pos + 1, t⟩)
      else if b = slash then
        if t.head? = some greater then some ([], true, ⟨pos + 2, t.drop 1⟩)
        else readAll? ⟨pos + 1, t⟩
      else (read? ⟨pos, b :: t⟩).bind fun (a, after) =>
        (readAll? after).map fun (more, selfClosing, stop) => (a :: more, selfClosing, stop) := by
  have hskip : (Cursor.mk pos (b :: t)).skipWhile isSpace = ⟨pos, b :: t⟩ :=
    Cursor.skipWhile_of_breaks (breaks_cons hb)
  have hrest : ((Cursor.mk pos (b :: t)).skipWhile isSpace).rest = b :: t := by rw [hskip]
  rw [readAll?_of_rest hrest, hskip]
  rfl

namespace IsName

variable (h : IsName name) (pos : Nat)

include h

theorem readAll?_eq (tail : Text) :
    readAll? ⟨pos, name ++ tail⟩ = (read? ⟨pos, name ++ tail⟩).bind fun (a, after) =>
      (readAll? after).map fun (more, selfClosing, stop) => (a :: more, selfClosing, stop) := by
  obtain ⟨hspace, hslash, hgreater, -⟩ := h
  rw [List.cons_append, readAll?_cons hspace, if_neg hgreater, if_neg hslash]

/-- If the first attribute is read, no end is found only if none is found behind it. -/
theorem readAll?_eq_none_iff {tail : Text} {a : Attribute} {d : Cursor}
    (hread : read? ⟨pos, name ++ tail⟩ = some (a, d)) :
    readAll? ⟨pos, name ++ tail⟩ = none ↔ readAll? d = none := by
  rw [h.readAll?_eq, hread, Option.bind_some, Option.map_eq_none_iff]

theorem read?_flag (hrest : Breaks isAttributeNameByte rest) (hassigns : ¬ Assigns rest) :
    read? ⟨pos, name ++ rest⟩ = some (⟨Text.lower name, none⟩, ⟨pos + name.length, rest⟩) := by
  obtain ⟨-, -, -, hmore⟩ := h
  rw [read?_name hmore hrest]
  dsimp only
  rw [if_neg]
  intro hsign
  obtain ⟨after, hafter⟩ := List.head?_eq_some_iff.1 hsign
  refine hassigns ⟨rest.takeWhile isSpace, after, fun b hb => List.mem_takeWhile_imp hb, ?_⟩
  rw [← hafter]
  exact List.takeWhile_append_dropWhile.symm

theorem read?_assigned (s : Assignment) (hrest : s.value.Before rest) :
    ∃ a d, read? ⟨pos, name ++ (s.text ++ rest)⟩ = some (a, d) ∧ d.rest = rest := by
  obtain ⟨-, -, -, hmore⟩ := h
  exact ⟨_, _, Attribute.read?_assigned hmore s hrest _ pos, rfl⟩

/-- With a `=` behind the name, a value is read behind the white space. -/
theorem read?_sign (hbefore : before.IsBlankRun) (hafter : after.IsBlankRun)
    (hrest : Breaks isSpace rest) :
    ∃ pos', read? ⟨pos, name ++ (before ++ equals :: (after ++ rest))⟩ =
      (readValue? ⟨pos', rest⟩).map fun (value, behind) =>
        (⟨Text.lower name, some value⟩, behind) := by
  obtain ⟨-, -, -, hmore⟩ := h
  have htail : Breaks isAttributeNameByte (before ++ equals :: (after ++ rest)) :=
    Breaks.append (fun b hb => (of_isSpace_in_tag b (hbefore b (List.mem_of_mem_head? hb))).1)
      (breaks_cons (by decide))
  rw [read?_name hmore htail]
  dsimp only
  rw [Cursor.skipWhile_run hbefore (breaks_cons (by decide)), if_pos (by rfl)]
  simp only [Cursor.advance, List.drop_succ_cons, List.drop_zero]
  rw [Cursor.skipWhile_run hafter hrest]
  exact ⟨_, rfl⟩

/-- Without a value between `=` and `>` the tag still ends. -/
theorem readAll?_noValue (hbefore : before.IsBlankRun) (hafter : after.IsBlankRun) :
    readAll? ⟨pos, name ++ (before ++ equals :: (after ++ greater :: rest))⟩ ≠ none := by
  obtain ⟨pos', hread⟩ :=
    h.read?_sign pos hbefore hafter (breaks_cons (by decide : isSpace greater = false))
  have hvalue : readValue? ⟨pos', greater :: rest⟩ =
      some (⟨pos', pos'⟩, ⟨pos', greater :: rest⟩) := rfl
  rw [hvalue, Option.map_some] at hread
  rw [Ne, h.readAll?_eq_none_iff pos hread, readAll?_cons (by decide), if_pos rfl]
  nofun

end IsName

theorem Unended.readAll?_eq_none (h : Unended t) (pos : Nat) : readAll? ⟨pos, t⟩ = none := by
  induction h generalizing pos with
  | nil => exact readAll?_of_nil rfl
  | space hspace _ ih => rw [readAll?_space hspace, ih]
  | slash hhead _ ih =>
    rw [readAll?_cons (by decide), if_neg (by decide), if_pos rfl, if_neg hhead, ih]
  | flag hname hrest hassigns _ ih =>
    exact (hname.readAll?_eq_none_iff pos (hname.read?_flag pos hrest hassigns)).2 (ih _)
  | assignment s hname hrest _ ih =>
    obtain ⟨a, ⟨pos', rest⟩, hread, rfl⟩ := hname.read?_assigned pos s hrest
    exact (hname.readAll?_eq_none_iff pos hread).2 (ih pos')
  | openValue hname hbefore hafter hvalue =>
    obtain ⟨pos', hread⟩ := hname.read?_sign pos hbefore hafter hvalue.breaks_isSpace
    rw [hname.readAll?_eq, hread, hvalue.readValue?_eq_none]
    rfl

/-- What is no white space, slash or `>` starts a name. -/
theorem exists_isName (hspace : isSpace b = false) (hslash : b ≠ slash) (hgreater : b ≠ greater)
    (t : Text) : ∃ name tail, IsName name ∧ Breaks isAttributeNameByte tail ∧
      b :: t = name ++ tail := by
  refine ⟨b :: t.takeWhile isAttributeNameByte, t.dropWhile isAttributeNameByte,
    .mk hspace hslash hgreater fun x hx => List.mem_takeWhile_imp hx, breaks_dropWhile _ _, ?_⟩
  rw [List.cons_append, List.takeWhile_append_dropWhile]

theorem exists_of_assigns (h : Assigns t) : ∃ before after value : Text, before.IsBlankRun ∧
    after.IsBlankRun ∧ Breaks isSpace value ∧ t = before ++ equals :: (after ++ value) := by
  obtain ⟨before, behind, hbefore, rfl⟩ := h
  refine ⟨before, behind.takeWhile isSpace, behind.dropWhile isSpace, hbefore,
    fun x hx => List.mem_takeWhile_imp hx, breaks_dropWhile _ _, ?_⟩
  rw [List.takeWhile_append_dropWhile]

/-- An attribute in a tag without an end has no end itself, or none comes behind it. -/
theorem IsName.unended (hname : IsName name) (hrest : Breaks isAttributeNameByte rest) {pos : Nat}
    (h : readAll? ⟨pos, name ++ rest⟩ = none)
    (hbehind : ∀ t pos', t.length < (name ++ rest).length → readAll? ⟨pos', t⟩ = none → Unended t) :
    Unended (name ++ rest) := by
  have hlength : 0 < name.length := by
    cases hname
    exact Nat.succ_pos _
  by_cases hassigns : Assigns rest
  · obtain ⟨before, after, value, hbefore, hafter, hvalue, rfl⟩ := exists_of_assigns hassigns
    obtain hopen | ⟨rest, rfl⟩ | ⟨v, rest, hbound, rfl⟩ := value_cases hvalue
    · exact .openValue hname hbefore hafter hopen
    · exact absurd h (hname.readAll?_noValue pos hbefore hafter)
    · let s : Assignment := ⟨before, after, v, hbefore, hafter⟩
      have htext : before ++ equals :: (after ++ (v.text ++ rest)) = s.text ++ rest := by
        simp [s, Assignment.text]
      rw [htext] at h hbehind ⊢
      obtain ⟨a, ⟨pos', rest⟩, hread, rfl⟩ := hname.read?_assigned pos s hbound
      refine .assignment s hname hbound
        (hbehind rest pos' ?_ ((hname.readAll?_eq_none_iff pos hread).1 h))
      simp only [List.length_append]
      omega
  · have hread := hname.read?_flag pos hrest hassigns
    refine .flag hname hrest hassigns
      (hbehind rest _ ?_ ((hname.readAll?_eq_none_iff pos hread).1 h))
    simp only [List.length_append]
    omega

/-- If no end of the tag is read, there is none. -/
theorem unended_of_readAll {pos : Nat} (h : readAll? ⟨pos, t⟩ = none) : Unended t := by
  induction hn : t.length using Nat.strongRecOn generalizing t pos with
  | _ n ih =>
    subst hn
    cases t with
    | nil => exact .nil
    | cons b t =>
      by_cases hspace : isSpace b = true
      · rw [readAll?_space hspace] at h
        exact .space hspace (ih t.length (by simp) h rfl)
      have hcons := readAll?_cons (by simpa using hspace) pos t
      by_cases hgreater : b = greater
      · rw [hcons, if_pos hgreater] at h
        cases h
      by_cases hslash : b = slash
      · rw [hcons, if_neg hgreater, if_pos hslash] at h
        split at h
        · cases h
        · rename_i hhead
          exact hslash ▸ .slash hhead (ih t.length (by simp) h rfl)
      obtain ⟨name, tail, hname, htail, hsplit⟩ :=
        exists_isName (by simpa using hspace) hslash hgreater t
      rw [hsplit] at h ih ⊢
      exact hname.unended htail h fun t' pos' hlt h' => ih t'.length hlt h' rfl

theorem readAll?_eq_none_iff {pos : Nat} : readAll? ⟨pos, t⟩ = none ↔ Unended t :=
  ⟨unended_of_readAll, fun h => h.readAll?_eq_none pos⟩

end Attribute

/-! ## Tokens -/

theorem Cursor.atEnd_skipWhile_ne (c : Cursor) (b : UInt8) :
    (c.skipWhile (· != b)).atEnd = true ↔ b ∉ c.rest := by
  rw [Cursor.atEnd, Cursor.skipWhile, List.isEmpty_iff, List.dropWhile_eq_nil_iff]
  constructor
  · intro h hb
    simpa using h b hb
  · rintro h x hx
    simpa using fun he : x = b => h (he ▸ hx)

namespace Token

variable {c : Cursor} {b : UInt8} {rest : Text}

theorem readDeclaration?_eq_none_iff (c : Cursor) :
    readDeclaration? c = none ↔ greater ∉ c.rest := by
  rw [← Cursor.atEnd_skipWhile_ne, readDeclaration?]
  split <;> simp_all

theorem readFinish?_eq_none_iff (c : Cursor) :
    readFinish? c = none ↔ greater ∉ (c.advance 2).rest := by
  have hname : greater ∉ (c.advance 2).rest ↔
      greater ∉ ((c.advance 2).skipWhile isElementNameByte).rest := by
    rw [not_iff_not]
    refine ⟨fun h => ?_, fun h => List.dropWhile_subset _ h⟩
    rw [← List.takeWhile_append_dropWhile (p := isElementNameByte) (l := (c.advance 2).rest),
      List.mem_append] at h
    exact h.resolve_left fun hmem => absurd (List.mem_takeWhile_imp hmem) (by decide)
  rw [hname, ← Cursor.atEnd_skipWhile_ne, readFinish?]
  split <;> simp_all

theorem readStart?_eq_none_iff (c : Cursor) : readStart? c = none ↔
    Attribute.Unended ((c.advance 1).skipWhile isElementNameByte).rest := by
  rw [readStart?, Option.map_eq_none_iff, ← Attribute.readAll?_eq_none_iff]

/-! The grammar, by the byte behind the `<`. -/

theorem unended_declaration_iff (hb : b = bang ∨ b = question) : Unended (less :: b :: rest) ↔
    ¬ (b = bang ∧ [hyphen, hyphen] <+: rest) ∧ greater ∉ rest := by
  constructor
  · intro h
    cases h with
    | declaration _ hcomment hgreater => exact ⟨hcomment, hgreater⟩
    | finish => exact absurd hb (by decide)
    | start hletter =>
      obtain ⟨-, hbang, hquestion, -⟩ := of_isLetter b hletter
      exact absurd hb (not_or.2 ⟨hbang, hquestion⟩)
  · rintro ⟨hcomment, hgreater⟩
    exact .declaration hb hcomment hgreater

theorem unended_finish_iff (hb : isLetter b = true) :
    Unended (less :: slash :: b :: rest) ↔ greater ∉ rest := by
  refine ⟨fun h => ?_, .finish hb⟩
  generalize ht : b :: rest = t at h
  cases h with
  | declaration hdeclaration => exact absurd hdeclaration (by decide)
  | finish _ hgreater =>
    cases ht
    exact hgreater
  | start hletter => exact absurd hletter (by decide)

theorem unended_start_iff (hb : isLetter b = true) : Unended (less :: b :: rest) ↔
    Attribute.Unended (rest.dropWhile isElementNameByte) := by
  obtain ⟨-, hbang, hquestion, hslash⟩ := of_isLetter b hb
  constructor
  · intro h
    cases h with
    | declaration hdeclaration => exact absurd hdeclaration (not_or.2 ⟨hbang, hquestion⟩)
    | finish => exact absurd rfl hslash
    | @start _ more rest _ hmore hrest hunended =>
      have hrun : (more ++ rest).dropWhile isElementNameByte = rest :=
        (Cursor.takeWhile_of_append (c := ⟨0, more ++ rest⟩) rfl hmore hrest).2
      rwa [hrun]
  · intro h
    rw [← List.takeWhile_append_dropWhile (p := isElementNameByte) (l := rest)]
    exact .start hb (fun x hx => List.mem_takeWhile_imp hx) (breaks_dropWhile _ _) h

/-- Nothing is read at a `<` only if no token starts there or the one that does has no end. -/
theorem read_eq_none_iff (hless : c.peek? = some less) :
    read? c = none ↔ ¬ Starts c.rest ∨ Unended c.rest := by
  obtain ⟨pos, rest⟩ := c
  obtain ⟨rest, rfl⟩ := List.head?_eq_some_iff.1 hless
  cases rest with
  | nil => exact iff_of_true rfl (.inl nofun)
  | cons b rest =>
    rw [read?]
    simp only [bne_self_eq_false, Bool.false_eq_true, if_false]
    split
    · rename_i hcomment
      obtain ⟨rfl, hopen⟩ : b = bang ∧ [hyphen, hyphen] <+: rest := by simpa using hcomment
      simp [Starts.declaration (.inl rfl), unended_declaration_iff (.inl rfl), hopen]
    · rename_i hcomment
      have hcomment' : ¬ (b = bang ∧ [hyphen, hyphen] <+: rest) := by simpa using hcomment
      split
      · rename_i hdeclaration
        have hb : b = bang ∨ b = question := by simpa using hdeclaration
        have hne : greater ≠ less ∧ greater ≠ b := by
          rcases hb with rfl | rfl <;> decide
        simp [Starts.declaration hb, unended_declaration_iff hb, hcomment', hne,
          readDeclaration?_eq_none_iff]
      · split
        · rename_i hfinish
          obtain ⟨rfl, x, hhead, hletter⟩ :
              b = slash ∧ ∃ x, rest.head? = some x ∧ isLetter x = true := by
            simpa [Option.any_eq_true] using hfinish
          obtain ⟨rest, rfl⟩ := List.head?_eq_some_iff.1 hhead
          have hne : greater ≠ x := by
            rintro rfl
            exact absurd hletter (by decide)
          simp [Starts.finish hletter, unended_finish_iff hletter, hne, readFinish?_eq_none_iff,
            Cursor.advance]
        · split
          · rename_i hletter
            have hdrop : (((Cursor.mk pos (less :: b :: rest)).advance 1).skipWhile
                isElementNameByte).rest = rest.dropWhile isElementNameByte :=
              List.dropWhile_cons_of_pos (of_isLetter b hletter).1
            simp [Starts.start hletter, unended_start_iff hletter, readStart?_eq_none_iff, hdrop]
          · rename_i hdeclaration hfinish hletter
            refine iff_of_true rfl (.inl ?_)
            generalize ht : b :: rest = t
            rintro (hb | hb | hb) <;> cases ht <;> simp_all

end Token

end Shortcode
