import Shortcode.Proofs.ArgumentReading
import Shortcode.Scan

/-!
# The grammar of tags

A tag is written `[/name]`, `[name part]` or `[name part/]` (`Bracket.Written`), where the part is
an argument list that is read as if it stood alone.  A tag is read at a `[` iff one is written
there, and what is read is the tag that is written.

    readSingle? context c = some (b, after) ↔
      ∃ tag name kind, Written tag name kind ∧ c.rest = tag ++ after.rest ∧ …
                                                                          (readSingle_iff_written)
-/

namespace Shortcode

open Byte
open Text (Breaks breaks_nil breaks_cons)

theorem Text.getLast?_append_iff {x : UInt8} {a t : Text} (h : x ∉ a) :
    (a ++ t).getLast? = some x ↔ t.getLast? = some x := by
  rw [List.getLast?_append]
  cases ht : t.getLast? with
  | some y => rfl
  | none => simpa using fun ha => h (List.mem_of_getLast? ha)

/-! ## Lists in front of the end of a tag -/

theorem Byte.not_isNameByte_of_isSeparator : ∀ b, isSeparator b = true → isNameByte b = false := by
  grind [isSeparator, isSpace, isNameByte, isAlphanumeric, isLetter, isDigit]

namespace Arguments

section

variable {tail rest : Text}

theorem reached_endOfTag_cons {b : UInt8} :
    Terminator.endOfTag.reached (b :: rest) = true ↔
      b = rightBracket ∨ b = slash ∧ rest.head? = some rightBracket := by
  rw [Terminator.reached, Bool.or_eq_true, List.isPrefixOf_iff_prefix, List.isPrefixOf_iff_prefix,
    List.cons_prefix_cons, List.cons_prefix_cons, eq_comm, @eq_comm _ slash]
  cases rest with
  | nil => simp
  | cons x rest => simp [List.cons_prefix_cons, @eq_comm _ rightBracket x]

/-- A tag ends with `]` or `/]`. -/
theorem reached_endOfTag (h : Terminator.endOfTag.reached tail = true) :
    (∃ t, tail = rightBracket :: t) ∨ ∃ t, tail = slash :: rightBracket :: t := by
  cases tail with
  | nil => cases h
  | cons b tail =>
    rcases reached_endOfTag_cons.1 h with rfl | ⟨rfl, hhead⟩
    · exact .inl ⟨tail, rfl⟩
    · obtain ⟨t, rfl⟩ := List.head?_eq_some_iff.1 hhead
      exact .inr ⟨t, rfl⟩

/-- A value without quotes holds no end of a tag iff it holds no `]` and makes none with what
follows. -/
theorem WrittenValue.clear_bare_iff {run : Text} :
    (WrittenValue.bare run).Clear .endOfTag rest ↔
      rightBracket ∉ run ∧ (rest.head? = some rightBracket → run.getLast? ≠ some slash) := by
  constructor
  · intro h
    constructor
    · intro hmem
      obtain ⟨before, behind, rfl⟩ := List.append_of_mem hmem
      have hclear := h (rightBracket :: behind) ⟨before, rfl⟩ (List.cons_ne_nil _ _)
      rw [List.cons_append, reached_endOfTag_cons.2 (.inl rfl)] at hclear
      cases hclear
    · intro hhead hlast
      obtain ⟨before, rfl⟩ := List.getLast?_eq_some_iff.1 hlast
      have hclear := h [slash] ⟨before, rfl⟩ (List.cons_ne_nil _ _)
      rw [List.singleton_append, reached_endOfTag_cons.2 (.inr ⟨rfl, hhead⟩)] at hclear
      cases hclear
  · rintro ⟨hmem, hlast⟩ s hs hne
    obtain ⟨b, s, rfl⟩ := List.exists_cons_of_ne_nil hne
    refine Bool.eq_false_iff.2 fun hreached => ?_
    rcases reached_endOfTag_cons.1 hreached with rfl | ⟨rfl, hhead⟩
    · exact hmem (hs.subset List.mem_cons_self)
    · cases s with
      | nil =>
        obtain ⟨before, rfl⟩ := hs
        exact hlast hhead List.getLast?_concat
      | cons x s =>
        obtain rfl : x = rightBracket := by simpa using hhead
        exact hmem (hs.subset (by simp))

/-- What stands in front of a value: key bytes, white space and a `=`. -/
theorem Item.not_mem_sign {x : UInt8} (hx : isKeyByte x = false ∧ isSpace x = false ∧ x ≠ equals)
    {key before after : Text} (hkey : IsKey key) (hbefore : ∀ b ∈ before, isSpace b = true)
    (hafter : ∀ b ∈ after, isSpace b = true) : x ∉ key ++ (before ++ equals :: after) := by
  obtain ⟨hxKey, hxSpace, hxSign⟩ := hx
  have hspaces : ∀ {t : Text}, (∀ b ∈ t, isSpace b = true) → x ∉ t := by
    intro t ht hmem
    exact absurd (ht x hmem) (by simp [hxSpace])
  have hkey : x ∉ key := fun hmem => absurd (hkey.bytes x hmem) (by simp [hxKey])
  simp [hkey, hspaces hbefore, hspaces hafter, hxSign]

/-- In front of `rest`, an item holds no end of a tag iff it holds no `]` outside quotes and the
list does not end in a `/` in front of a `]`. -/
theorem Item.clear_iff {item : Item} (h : item.Before rest) :
    item.Clear .endOfTag (rest ++ tail) ↔
      rightBracket ∉ item.unquoted ∧
        (rest = [] → tail.head? = some rightBracket → item.text.getLast? ≠ some slash) := by
  cases item with
  | separator b =>
    obtain ⟨-, -, hslash, hbracket⟩ := of_isSeparator b h
    simp [Clear, unquoted, text, hslash, Ne.symm hbracket]
  | flag key =>
    have hslash : slash ∉ key := fun hmem => absurd (h.1.bytes _ hmem) (by decide)
    have hbracket : rightBracket ∉ key := fun hmem => absurd (h.1.bytes _ hmem) (by decide)
    simpa [Clear, unquoted, text, hbracket] using
      fun _ _ hlast => hslash (List.mem_of_getLast? hlast)
  | assignment key before after value =>
    obtain ⟨hkey, hbefore, hafter, -, hvalue⟩ := h
    have hslash := not_mem_sign (x := slash) (by decide) hkey hbefore hafter
    have hbracket := not_mem_sign (x := rightBracket) (by decide) hkey hbefore hafter
    have htext : (assignment key before after value).text =
        (key ++ (before ++ equals :: after)) ++ value.text := by simp [text]
    have hunquoted : (assignment key before after value).unquoted =
        (key ++ (before ++ equals :: after)) ++ value.unquoted := by simp [unquoted]
    rw [htext, hunquoted, Ne, Text.getLast?_append_iff hslash, List.mem_append,
      or_iff_right hbracket]
    cases value with
    | quoted quote content =>
      obtain ⟨-, -, hquote, -⟩ := of_isQuote quote hvalue.1
      have hlast : (WrittenValue.quoted quote content).text.getLast? = some quote :=
        List.getLast?_concat (l := quote :: content)
      simp [Clear, WrittenValue.Clear, WrittenValue.unquoted, hlast, hquote]
    | bare run =>
      refine WrittenValue.clear_bare_iff.trans (and_congr_right fun _ => ?_)
      cases rest with
      | nil => simp [WrittenValue.text]
      | cons b rest =>
        have hsep : isSeparator b = true := by simpa using hvalue.2.2 b rfl
        simp [(of_isSeparator b hsep).2.2.2]

/-- A list ends in front of `tail` and not before iff it holds no `]` outside quotes and does not
end in a `/` in front of a `]`. -/
theorem Listing.allClear_iff {raw : Text} {items : List Item} (h : Listing raw items) :
    AllClear .endOfTag tail items ↔
      rightBracket ∉ items.flatMap Item.unquoted ∧
        (tail.head? = some rightBracket → raw.getLast? ≠ some slash) := by
  induction h with
  | nil => simp [AllClear]
  | @cons rest item items hitem hrest ih =>
    rw [AllClear, hrest.text_eq, Item.clear_iff hitem, ih, List.flatMap_cons, List.mem_append,
      not_or, List.getLast?_append]
    cases hlast : rest.getLast? with
    | none =>
      obtain rfl := List.getLast?_eq_none_iff.1 hlast
      simp
      tauto
    | some x =>
      have hne : rest ≠ [] := by rintro rfl; cases hlast
      simp [hne]
      tauto

end

end Arguments

/-! ## Grammar -/

namespace Bracket

open Arguments (Listing Item)

structure IsName (name : Text) : Prop where
  ne_nil : name ≠ []
  bytes : ∀ b ∈ name, isNameByte b = true

/-- What stands between the name of an open tag and its end. -/
structure ArgumentPart (part : Text) (arguments : Arguments) : Prop where
  /-- The part is empty or starts with a separator. -/
  separated : Breaks (!isSeparator ·) part
  /-- On its own it is a list of these arguments. -/
  listed : Arguments.ofText part = .ok arguments
  /-- It holds `]` in quotes only. -/
  enclosed : ∀ items, Listing part items → rightBracket ∉ items.flatMap Item.unquoted

/-- The text `tag` is a tag with this name, of this kind. -/
inductive Written : Text → Text → BracketKind → Prop
  | closing {name : Text} :
      IsName name → Written (leftBracket :: slash :: (name ++ [rightBracket])) name .closing
  | opening {name part : Text} {arguments : Arguments} :
      IsName name → ArgumentPart part arguments → part.getLast? ≠ some slash →
      Written (leftBracket :: (name ++ (part ++ [rightBracket]))) name (.opening arguments false)
  | selfClosing {name part : Text} {arguments : Arguments} :
      IsName name → ArgumentPart part arguments →
      Written (leftBracket :: (name ++ (part ++ [slash, rightBracket]))) name
        (.opening arguments true)

/-- A tag is written at the start of this text. -/
def Starts (rest : Text) : Prop := ∃ tag name kind, Written tag name kind ∧ tag <+: rest

/-! ## What is written is read -/

section

variable {context : Context} {pos start : Nat} {name part tail after : Text}
  {arguments : Arguments}

theorem IsName.exists_cons (h : IsName name) :
    ∃ b rest, name = b :: rest ∧ isNameByte b = true := by
  obtain ⟨b, rest, rfl⟩ := List.exists_cons_of_ne_nil h.ne_nil
  exact ⟨b, rest, rfl, h.bytes b List.mem_cons_self⟩

theorem readClosing_append (hname : IsName name) :
    readClosing context start ⟨pos, name ++ rightBracket :: after⟩ =
      some (⟨name, .closing, ⟨start, pos + name.length + 1⟩, false, false, context⟩,
        ⟨pos + name.length + 1, after⟩) := by
  have hends : Breaks isNameByte (rightBracket :: after) := breaks_cons (by decide)
  have hempty : name.isEmpty = false := by simpa using hname.ne_nil
  rw [readClosing, Cursor.takeWhile_run hname.bytes hends, Cursor.skipWhile_run hname.bytes hends,
    hempty]
  rfl

/-- A name ends in front of an argument list iff that is empty or starts with a separator. -/
theorem nameEnds_append {items : List Item} (hpart : Listing part items)
    (htail : Terminator.endOfTag.reached tail = true) :
    nameEnds (part ++ tail) = true ↔ Breaks (!isSeparator ·) part := by
  cases part with
  | nil =>
    refine iff_of_true ?_ breaks_nil
    rcases Arguments.reached_endOfTag htail with ⟨t, rfl⟩ | ⟨t, rfl⟩ <;> rfl
  | cons b part =>
    constructor
    · intro h
      refine breaks_cons ?_
      rcases hpart.head_cases rfl with hsep | hkey
      · simp [hsep]
      · obtain ⟨-, -, -, hslash, hbracket⟩ := of_isKeyByte b hkey
        simpa [nameEnds, hbracket, Ne.symm hslash] using h
    · intro h
      have hsep : isSeparator b = true := by simpa using h b rfl
      simp [nameEnds, hsep]

theorem readOpening_append (hname : IsName name) (hpart : ArgumentPart part arguments)
    (htail : Terminator.endOfTag.reached tail = true)
    (hlast : tail.head? = some rightBracket → part.getLast? ≠ some slash) :
    readOpening context start ⟨pos, name ++ (part ++ tail)⟩ =
      let stop : Cursor := ⟨pos + name.length + part.length, tail⟩
      let selfClosing := stop.startsWith [slash, rightBracket]
      let last := stop.advance (if selfClosing then 2 else 1)
      some (⟨name, .opening arguments selfClosing, ⟨start, last.pos⟩, false, false, context⟩,
        last) := by
  obtain ⟨items, hlist, rfl⟩ := Arguments.ofText_eq_ok_iff.1 hpart.listed
  have hclear := hlist.allClear_iff.2 ⟨hpart.enclosed items hlist, hlast⟩
  have hread : Arguments.read .endOfTag ⟨pos + name.length, part ++ tail⟩ = .ok _ :=
    Arguments.readInto_append htail hlist hclear .empty
  have hends : Breaks isNameByte (part ++ tail) := by
    refine Breaks.append (hpart.separated.mono fun b hb => ?_)
      (Arguments.breaks_of_reached htail (by decide) (by decide))
    exact not_isNameByte_of_isSeparator b (by simpa using hb)
  have hempty : name.isEmpty = false := by simpa using hname.ne_nil
  have hnameEnds := (nameEnds_append hlist htail).2 hpart.separated
  simp only [readOpening, Cursor.takeWhile_run hname.bytes hends,
    Cursor.skipWhile_run hname.bytes hends, hempty, hnameEnds, hread]
  rfl

theorem readSingle_slash :
    readSingle? context ⟨pos, leftBracket :: slash :: after⟩ =
      readClosing context pos ⟨pos + 2, after⟩ := rfl

theorem readSingle_of_ne_slash (h : after.head? ≠ some slash) :
    readSingle? context ⟨pos, leftBracket :: after⟩ = readOpening context pos ⟨pos + 1, after⟩ := by
  have hstarts : (Cursor.mk (pos + 1) after).startsWith [slash] = false := by
    cases after with
    | nil => rfl
    | cons b after =>
      have hb : slash ≠ b := fun he => h (he ▸ rfl)
      simp [Cursor.startsWith, List.isPrefixOf, hb]
  simp only [readSingle?, Cursor.advance, List.drop_one, List.tail_cons, hstarts]
  rfl

theorem IsName.head?_append_ne (h : IsName name) : (name ++ after).head? ≠ some slash := by
  obtain ⟨b, rest, rfl, hb⟩ := h.exists_cons
  rintro ⟨⟩
  revert hb
  decide

/-- A tag that is written at the cursor is read, whatever follows it. -/
theorem readSingle_of_written {tag : Text} {kind : BracketKind} (h : Written tag name kind) :
    readSingle? context ⟨pos, tag ++ after⟩ =
      some (⟨name, kind, ⟨pos, pos + tag.length⟩, false, false, context⟩,
        ⟨pos + tag.length, after⟩) := by
  cases h with
  | closing hname =>
    have hread : readClosing context pos ⟨pos + 2, name ++ rightBracket :: after⟩ = _ :=
      readClosing_append hname
    have hlength : pos + (leftBracket :: slash :: (name ++ [rightBracket])).length =
        pos + 2 + name.length + 1 := by
      simp only [List.length_cons, List.length_append, List.length_nil]
      omega
    rw [hlength]
    simp only [List.cons_append, List.append_assoc, List.nil_append]
    exact readSingle_slash.trans hread
  | @opening _ part _ hname hpart hlast =>
    have hread : readOpening context pos ⟨pos + 1, name ++ (part ++ rightBracket :: after)⟩ = _ :=
      readOpening_append hname hpart rfl fun _ => hlast
    have hlength : pos + (leftBracket :: (name ++ (part ++ [rightBracket]))).length =
        pos + 1 + name.length + part.length + 1 := by
      simp only [List.length_cons, List.length_append, List.length_nil]
      omega
    rw [hlength]
    simp only [List.cons_append, List.append_assoc, List.nil_append]
    exact (readSingle_of_ne_slash hname.head?_append_ne).trans hread
  | @selfClosing _ part _ hname hpart =>
    have hread : readOpening context pos
        ⟨pos + 1, name ++ (part ++ slash :: rightBracket :: after)⟩ = _ :=
      readOpening_append hname hpart rfl nofun
    have hlength : pos + (leftBracket :: (name ++ (part ++ [slash, rightBracket]))).length =
        pos + 1 + name.length + part.length + 2 := by
      simp only [List.length_cons, List.length_append, List.length_nil]
      omega
    rw [hlength]
    simp only [List.cons_append, List.append_assoc, List.nil_append]
    exact (readSingle_of_ne_slash hname.head?_append_ne).trans hread

end

/-! ## What is read is written -/

section

variable {context : Context} {pos start : Nat} {rest : Text} {b : Bracket} {c after : Cursor}

/-- The name that a reader finds, unless there is none. -/
theorem isName_takeWhile (h : ¬ (c.takeWhile isNameByte).isEmpty = true) :
    IsName (c.takeWhile isNameByte) :=
  ⟨by simpa using h, fun _ hb => List.mem_takeWhile_imp hb⟩

theorem written_of_readClosing (h : readClosing context start c = some (b, after)) :
    ∃ tag name kind, Written tag name kind ∧
      leftBracket :: slash :: c.rest = tag ++ after.rest := by
  rw [readClosing] at h
  simp only [Bool.or_eq_true, Bool.not_eq_true', not_or, Option.ite_none_left_eq_some,
    Bool.not_eq_false] at h
  obtain ⟨⟨hname, hends⟩, hsome⟩ := h
  cases hsome
  obtain ⟨t, ht⟩ := List.isPrefixOf_iff_prefix.1 hends
  have hsplit : c.takeWhile isNameByte ++ (c.skipWhile isNameByte).rest = c.rest :=
    List.takeWhile_append_dropWhile
  refine ⟨_, _, _, .closing (isName_takeWhile hname), ?_⟩
  rw [← hsplit, Cursor.advance_rest, ← ht]
  simp

theorem written_of_readOpening (h : readOpening context start c = some (b, after)) :
    ∃ tag name kind, Written tag name kind ∧ leftBracket :: c.rest = tag ++ after.rest := by
  rw [readOpening] at h
  simp only [Bool.or_eq_true, Bool.not_eq_true', not_or, Option.ite_none_left_eq_some,
    Bool.not_eq_false] at h
  obtain ⟨⟨hname, hends⟩, hsome⟩ := h
  split at hsome
  · cases hsome
  · rename_i arguments stop hread
    have hsplit : c.takeWhile isNameByte ++ (c.skipWhile isNameByte).rest = c.rest :=
      List.takeWhile_append_dropWhile
    obtain ⟨part, items, hrest, -, htail, hlist, hclear, rfl⟩ :=
      Arguments.readInto_eq_ok_iff.1 hread
    obtain ⟨henclosed, hlast⟩ := hlist.allClear_iff.1 hclear
    rw [hrest] at hends hsplit
    have hpart : ArgumentPart part (.insertItems .empty items) :=
      ⟨(nameEnds_append hlist htail).1 hends, Arguments.ofText_eq_ok_iff.2 ⟨items, hlist, rfl⟩,
        fun items' hlist' => hlist'.unique hlist ▸ henclosed⟩
    obtain ⟨pos, tail⟩ := stop
    rcases Arguments.reached_endOfTag htail with ⟨t, rfl⟩ | ⟨t, rfl⟩
    · cases hsome
      refine ⟨_, _, _, .opening (isName_takeWhile hname) hpart (hlast rfl), ?_⟩
      rw [← hsplit]
      simp only [List.cons_append, List.append_assoc]
      rfl
    · cases hsome
      refine ⟨_, _, _, .selfClosing (isName_takeWhile hname) hpart, ?_⟩
      rw [← hsplit]
      simp only [List.cons_append, List.append_assoc]
      rfl

theorem written_of_readSingle
    (h : readSingle? context ⟨pos, leftBracket :: rest⟩ = some (b, after)) :
    ∃ tag name kind, Written tag name kind ∧ leftBracket :: rest = tag ++ after.rest := by
  by_cases hslash : rest.head? = some slash
  · obtain ⟨rest, rfl⟩ := List.head?_eq_some_iff.1 hslash
    exact written_of_readClosing h
  · rw [readSingle_of_ne_slash hslash] at h
    exact written_of_readOpening h

theorem readSingle_eq_some_iff :
    readSingle? context ⟨pos, leftBracket :: rest⟩ = some (b, after) ↔
      ∃ tag name kind, Written tag name kind ∧ leftBracket :: rest = tag ++ after.rest ∧
        after.pos = pos + tag.length ∧
        b = ⟨name, kind, ⟨pos, pos + tag.length⟩, false, false, context⟩ := by
  constructor
  · intro h
    obtain ⟨tag, name, kind, hwritten, hrest⟩ := written_of_readSingle h
    rw [hrest, readSingle_of_written hwritten] at h
    obtain ⟨hb, hafter⟩ := Prod.mk.inj (Option.some.inj h)
    exact ⟨tag, name, kind, hwritten, hrest, by rw [← hafter], hb.symm⟩
  · rintro ⟨tag, name, kind, hwritten, hrest, hpos, rfl⟩
    obtain ⟨_, t⟩ := after
    obtain rfl : _ = pos + tag.length := hpos
    rw [hrest]
    exact readSingle_of_written hwritten

theorem readSingle_eq_none_iff :
    readSingle? context ⟨pos, leftBracket :: rest⟩ = none ↔ ¬ Starts (leftBracket :: rest) := by
  constructor
  · rintro h ⟨tag, name, kind, hwritten, after, hrest⟩
    rw [← hrest, readSingle_of_written hwritten] at h
    cases h
  · intro h
    refine Option.eq_none_iff_forall_ne_some.2 fun ⟨b, after⟩ hsome => h ?_
    obtain ⟨tag, name, kind, hwritten, hrest⟩ := written_of_readSingle hsome
    exact ⟨tag, name, kind, hwritten, _, hrest.symm⟩

/-- At most one tag is written at the start of a text, and in one way. -/
theorem Written.unique {tag tag' name name' : Text} {kind kind' : BracketKind}
    (h : Written tag name kind) (h' : Written tag' name' kind') (hp : tag <+: rest)
    (hp' : tag' <+: rest) : tag = tag' ∧ name = name' ∧ kind = kind' := by
  obtain ⟨t, rfl⟩ := hp
  obtain ⟨t', hrest⟩ := hp'
  have hread : readSingle? .body ⟨0, tag ++ t⟩ = _ := readSingle_of_written h
  rw [← hrest, readSingle_of_written h'] at hread
  simp only [Option.some.injEq, Prod.mk.injEq, Bracket.mk.injEq, Cursor.mk.injEq] at hread
  obtain ⟨⟨rfl, rfl, -⟩, -, rfl⟩ := hread
  exact ⟨(List.append_cancel_right hrest).symm, rfl, rfl⟩

end

/-! ## Doubled brackets -/

section

variable {context : Context} {pos : Nat} {rest : Text}

/-- No tag starts with a doubled bracket. -/
theorem not_starts_of_doubled : ¬ Starts (leftBracket :: leftBracket :: rest) := by
  rintro ⟨tag, name, kind, hwritten, after, hrest⟩
  have hname : IsName name → ∀ t, name ++ t ≠ leftBracket :: rest := by
    intro hname t he
    obtain ⟨b, name, rfl, hb⟩ := hname.exists_cons
    obtain ⟨rfl, -⟩ := List.cons.inj he
    revert hb
    decide
  cases hwritten with
  | closing _ => cases hrest
  | opening h _ _ => exact hname h _ (by simpa using hrest)
  | selfClosing h _ => exact hname h _ (by simpa using hrest)

theorem read_eq_none_iff :
    read? context ⟨pos, leftBracket :: rest⟩ = none ↔
      ¬ Starts (leftBracket :: rest) ∧ (rest.head? = some leftBracket → ¬ Starts rest) := by
  have hread : ∀ c, read? context c = none ↔
      readSingle? context (if c.peekAt? 1 == some leftBracket then c.advance 1 else c) = none := by
    intro c
    rw [read?]
    cases readSingle? context (if c.peekAt? 1 == some leftBracket then c.advance 1 else c) with
    | none => simp
    | some p => simp
  have hpeek : (Cursor.mk pos (leftBracket :: rest)).peekAt? 1 = rest.head? :=
    List.head?_eq_getElem?.symm
  rw [hread, hpeek]
  by_cases hlead : rest.head? = some leftBracket
  · obtain ⟨rest, rfl⟩ := List.head?_eq_some_iff.1 hlead
    have hnext : readSingle? context
        ((Cursor.mk pos (leftBracket :: leftBracket :: rest)).advance 1) = none ↔ _ :=
      readSingle_eq_none_iff
    simpa [not_starts_of_doubled] using hnext
  · simpa [hlead] using readSingle_eq_none_iff

end

end Bracket

/-! ## The pass -/

namespace Scan

variable {context : Context} {pos region : Nat} {rest : Text}

/-- Where no tag is written the reader for text without markup goes one byte on. -/
theorem brackets_of_read_eq_none (h : Bracket.read? context ⟨pos, leftBracket :: rest⟩ = none) :
    brackets context ⟨pos, leftBracket :: rest⟩ = brackets context ⟨pos + 1, rest⟩ := by
  rw [brackets]
  simp only [if_true]
  split
  · rename_i hread
    rw [h] at hread
    cases hread
  · rfl

/-- Where no tag is written the pass goes one byte on. -/
theorem pieces_of_read_eq_none (h : Bracket.read? .body ⟨pos, leftBracket :: rest⟩ = none) :
    pieces region ⟨pos, leftBracket :: rest⟩ = pieces region ⟨pos + 1, rest⟩ := by
  rw [pieces]
  simp only [if_true]
  split
  · rename_i hread
    rw [h] at hread
    cases hread
  · rfl

end Scan

/-- At a `[`, a tag is read iff one is written there; it is the only one written there, and all that
is read.  Where none is written, behind one more `[` or at once, nothing is read and the pass goes
on with the next byte. -/
theorem Bracket.readSingle_iff_written (pos : Nat) (rest : Text) :
    (∀ context b after, readSingle? context ⟨pos, leftBracket :: rest⟩ = some (b, after) ↔
      ∃ tag name kind, Written tag name kind ∧ leftBracket :: rest = tag ++ after.rest ∧
        after.pos = pos + tag.length ∧
        b = ⟨name, kind, ⟨pos, pos + tag.length⟩, false, false, context⟩) ∧
    (∀ tag tag' name name' kind kind', Written tag name kind → Written tag' name' kind' →
      tag <+: leftBracket :: rest → tag' <+: leftBracket :: rest →
        tag = tag' ∧ name = name' ∧ kind = kind') ∧
    (∀ context, read? context ⟨pos, leftBracket :: rest⟩ = none ↔
      ¬ Starts (leftBracket :: rest) ∧ (rest.head? = some leftBracket → ¬ Starts rest)) ∧
    (∀ context, read? context ⟨pos, leftBracket :: rest⟩ = none →
      Scan.brackets context ⟨pos, leftBracket :: rest⟩ = Scan.brackets context ⟨pos + 1, rest⟩) ∧
    ∀ region, read? .body ⟨pos, leftBracket :: rest⟩ = none →
      Scan.pieces region ⟨pos, leftBracket :: rest⟩ = Scan.pieces region ⟨pos + 1, rest⟩ :=
  ⟨fun _ _ _ => readSingle_eq_some_iff, fun _ _ _ _ _ _ => Written.unique,
    fun _ => read_eq_none_iff, fun _ => Scan.brackets_of_read_eq_none,
    fun _ => Scan.pieces_of_read_eq_none⟩

end Shortcode
