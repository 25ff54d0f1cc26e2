import Mathlib.Data.List.TakeWhile
import Shortcode.Proofs.ArgumentGrammar

/-!
# Reading by the grammar

A list that is read to the end of a text is a row of items, and the arguments are the entries of
these.  Where there is no such row the error points at the byte that is in the way.

    ofText raw = .ok args ↔
      ∃ items, Listing raw items ∧ args = ofList (items.filterMap Item.entry?)  (ofText_iff_listing)

A list is read in front of the end of a tag as it is read on its own.  There it must not hold what
ends the tag, except in quotes; `Item.Clear` says so of one item, for either end of a list.
-/

namespace Shortcode

open Byte
open Text (Breaks breaks_cons breaks_dropWhile)

namespace Arguments

/-! ## Lists in front of their end -/

/-- With `rest` behind the value, the list does not end inside it.  No list ends in quotes. -/
def WrittenValue.Clear (stop : Terminator) (rest : Text) : WrittenValue → Prop
  | quoted .. => True
  | bare run => ∀ s, s <:+ run → s ≠ [] → stop.reached (s ++ rest) = false

/-- With `rest` behind the item, the list does not end inside it. -/
def Item.Clear (stop : Terminator) (rest : Text) : Item → Prop
  | separator _ => True
  | flag _ => True
  | assignment _ _ _ value => value.Clear stop rest

/-- With `tail` behind the items, the list does not end inside any of them. -/
def AllClear (stop : Terminator) (tail : Text) : List Item → Prop
  | [] => True
  | item :: items => item.Clear stop (items.flatMap Item.text ++ tail) ∧ AllClear stop tail items

theorem AllClear.separators {stop : Terminator} {tail seps : Text} {items : List Item}
    (h : AllClear stop tail items) : AllClear stop tail (seps.map .separator ++ items) := by
  induction seps with
  | nil => exact h
  | cons b seps ih => exact ⟨trivial, ih⟩

/-- Nothing stands in the way of a list that is a whole text. -/
theorem allClear_endOfText {tail : Text} (items : List Item) :
    AllClear .endOfText tail items := by
  have hvalue : ∀ (value : WrittenValue) (rest : Text), value.Clear .endOfText rest := by
    rintro (_ | run) rest
    · exact trivial
    · intro s _ hne
      obtain ⟨b, s, rfl⟩ := List.exists_cons_of_ne_nil hne
      rfl
  induction items with
  | nil => exact trivial
  | cons item items ih =>
    refine ⟨?_, ih⟩
    cases item with
    | separator b => exact trivial
    | flag key => exact trivial
    | assignment key before after value => exact hvalue value _

/-! ### What stands at the end -/

section

variable {stop : Terminator} {tail rest : Text}

theorem head_of_reached (h : stop.reached tail = true) {b : UInt8} (hb : tail.head? = some b) :
    b = rightBracket ∨ b = slash := by
  obtain ⟨rest, rfl⟩ := List.head?_eq_some_iff.1 hb
  cases stop with
  | endOfText => cases h
  | endOfTag =>
    simp only [Terminator.reached, List.isPrefixOf, Bool.or_eq_true, Bool.and_eq_true,
      beq_iff_eq] at h
    exact h.imp (fun h => h.1.symm) fun h => h.1.symm

/-- A list does not end in front of a key. -/
theorem reached_of_isKeyByte {b : UInt8} (hb : isKeyByte b = true) :
    stop.reached (b :: rest) = false := by
  cases h : stop.reached (b :: rest) with
  | false => rfl
  | true =>
    obtain ⟨-, -, -, hslash, hbracket⟩ := of_isKeyByte b hb
    exact ((head_of_reached h rfl).elim hbracket hslash).elim

theorem breaks_of_reached (h : stop.reached tail = true) {p : UInt8 → Bool}
    (hbracket : p rightBracket = false) (hslash : p slash = false) : Breaks p tail := by
  intro b hb
  rcases head_of_reached h hb with rfl | rfl
  · exact hbracket
  · exact hslash

/-- The end of a list gives no key a value. -/
theorem assigns_append (h : stop.reached tail = true) : Assigns (rest ++ tail) ↔ Assigns rest := by
  constructor
  · rintro ⟨spaces, after, hspaces, he⟩
    have htail : ∀ {x t}, tail = x :: t → isSpace x = false ∧ x ≠ equals := by
      rintro x t rfl
      rcases head_of_reached h rfl with rfl | rfl <;> decide
    rcases List.append_eq_append_iff.1 he with ⟨u, rfl, hu⟩ | ⟨u, rfl, hu⟩
    · -- the white space goes on behind the list
      cases u with
      | nil => exact absurd rfl (htail hu).2
      | cons x u =>
        have hx := (htail hu).1
        rw [hspaces x (by simp)] at hx
        cases hx
    · cases u with
      | nil => exact absurd rfl (htail hu.symm).2
      | cons x u =>
        obtain ⟨rfl, -⟩ := List.cons.inj hu
        exact ⟨spaces, u, hspaces, rfl⟩
  · rintro ⟨spaces, after, hspaces, rfl⟩
    exact ⟨spaces, after ++ tail, hspaces, by simp⟩

end

/-! ## What is read -/

section

variable {stop : Terminator} {pos : Nat} {rest : Text}

/-- A text is at its end, starts with no key, or starts with a key, with a `=` after it or not. -/
theorem start_cases (t : Text) :
    t = [] ∨ (∃ b rest, t = b :: rest ∧ isKeyByte b = false) ∨
    (∃ key rest, t = key ++ rest ∧ IsKey key ∧ Breaks isKeyByte rest ∧ ¬ Assigns rest) ∨
    ∃ key before after rest, t = key ++ (before ++ equals :: (after ++ rest)) ∧ IsKey key ∧
      (∀ b ∈ before, isSpace b = true) ∧ (∀ b ∈ after, isSpace b = true) ∧ Breaks isSpace rest := by
  rcases t with _ | ⟨b, t⟩
  · exact .inl rfl
  cases hb : isKeyByte b with
  | false => exact .inr (.inl ⟨b, t, rfl, hb⟩)
  | true =>
    have hkey : IsKey ((b :: t).takeWhile isKeyByte) :=
      ⟨by simp [hb], fun x hx => List.mem_takeWhile_imp hx⟩
    have hsplit := List.takeWhile_append_dropWhile (p := isKeyByte) (l := b :: t)
    by_cases hassigns : Assigns ((b :: t).dropWhile isKeyByte)
    · obtain ⟨before, behind, hbefore, hsign⟩ := hassigns
      refine .inr (.inr (.inr ⟨_, before, behind.takeWhile isSpace, behind.dropWhile isSpace, ?_,
        hkey, hbefore, fun x hx => List.mem_takeWhile_imp hx, breaks_dropWhile _ _⟩))
      rw [List.takeWhile_append_dropWhile, ← hsign, hsplit]
    · exact .inr (.inr (.inl ⟨_, _, hsplit.symm, hkey, breaks_dropWhile _ _, hassigns⟩))

/-! ### Values -/

theorem quotedValue_append {quote : UInt8} {offset : Nat} {content : Text} (h : quote ∉ content) :
    quotedValue quote offset ⟨pos, content ++ quote :: rest⟩ =
      .ok (content, ⟨pos + content.length + 1, rest⟩) := by
  have hinside : ∀ b ∈ content, (b != quote) = true := by
    intro b hb
    simpa using fun he : b = quote => h (he ▸ hb)
  have hends : Breaks (· != quote) (quote :: rest) := breaks_cons (by simp)
  rw [quotedValue, Cursor.takeWhile_run hinside hends, Cursor.skipWhile_run hinside hends]
  rfl

theorem quotedValue_of_not_mem {quote : UInt8} {offset : Nat} {c : Cursor} (h : quote ∉ c.rest) :
    quotedValue quote offset c = .error (.unterminatedQuote quote offset) := by
  have hend : (c.skipWhile (· != quote)).atEnd = true := by
    simp only [Cursor.atEnd, Cursor.skipWhile, List.isEmpty_iff, List.dropWhile_eq_nil_iff]
    intro b hb
    simpa using fun he : b = quote => h (he ▸ hb)
  simp only [quotedValue, hend, if_true]

theorem value_of_isQuote {quote : UInt8} (h : isQuote quote = true) :
    value stop ⟨pos, quote :: rest⟩ = quotedValue quote pos ⟨pos + 1, rest⟩ := by
  simp only [value, Cursor.peek?, List.head?_cons, h, if_true]
  rfl

/-- Without a quote the value ends where a value without quotes does. -/
theorem value_of_breaks {c : Cursor} (h : Breaks isQuote c.rest) :
    value stop c = .ok (c.takeUntil (endsBareValue stop), c.skipUntil (endsBareValue stop)) := by
  obtain ⟨pos, _ | ⟨b, t⟩⟩ := c
  · rfl
  · simp only [value, Cursor.peek?, List.head?_cons, h b rfl, Bool.false_eq_true, if_false]

theorem value_append {tail raw : Text} {v : WrittenValue} (htail : stop.reached tail = true)
    (hv : v.Before raw) (hclear : v.Clear stop (raw ++ tail)) :
    value stop ⟨pos, v.text ++ (raw ++ tail)⟩ =
      .ok (v.content, ⟨pos + v.text.length, raw ++ tail⟩) := by
  cases v with
  | quoted quote content =>
    have hshape : (WrittenValue.quoted quote content).text ++ (raw ++ tail) =
        quote :: (content ++ quote :: (raw ++ tail)) := by simp [WrittenValue.text]
    have hpos : pos + (WrittenValue.quoted quote content).text.length =
        pos + 1 + content.length + 1 := by
      simp only [WrittenValue.text, List.length_cons, List.length_append, List.length_nil]
      omega
    rw [hshape, hpos, value_of_isQuote hv.1, quotedValue_append hv.2]
    rfl
  | bare run =>
    have hquote : Breaks isQuote (run ++ (raw ++ tail)) := by
      rw [← List.append_assoc]
      exact (WrittenValue.breaks_isQuote hv).append (breaks_of_reached htail rfl rfl)
    obtain ⟨hrun, -, hraw⟩ := hv
    have hinside : ∀ s, s <:+ run → s ≠ [] → endsBareValue stop (s ++ (raw ++ tail)) = false := by
      intro s hs hne
      have hhead : ((s ++ (raw ++ tail)).head?.any isSeparator) = false := by
        obtain ⟨b, s, rfl⟩ := List.exists_cons_of_ne_nil hne
        exact hrun b (hs.subset List.mem_cons_self)
      rw [endsBareValue, hhead, hclear s hs hne]
      rfl
    have hends : raw ++ tail ≠ [] → endsBareValue stop (raw ++ tail) = true := by
      intro _
      cases raw with
      | nil => rw [endsBareValue, List.nil_append, htail, Bool.or_true]
      | cons b raw =>
        have hb : isSeparator b = true := by simpa using hraw b rfl
        simp [endsBareValue, hb]
    obtain ⟨htake, hdrop⟩ := Text.takeUntil_append hinside hends
    show value stop ⟨pos, run ++ (raw ++ tail)⟩ = .ok (run, ⟨pos + run.length, raw ++ tail⟩)
    rw [value_of_breaks hquote, Cursor.takeUntil, Cursor.skipUntil, htake, hdrop]

/-- What stops a value in front of the rest of a list is a separator. -/
theorem breaks_of_endsBareValue {tail raw : Text} {items : List Item} (hraw : Listing raw items)
    (h : raw ++ tail ≠ [] → endsBareValue stop (raw ++ tail) = true) :
    Breaks (!isSeparator ·) raw := by
  intro b hb
  obtain ⟨t, rfl⟩ := List.head?_eq_some_iff.1 hb
  have hends : (isSeparator b || stop.reached (b :: (t ++ tail))) = true :=
    h (List.cons_ne_nil _ _)
  rcases hraw.head_cases hb with hsep | hkey
  · simp [hsep]
  · rw [reached_of_isKeyByte hkey, Bool.or_false] at hends
    simp [hends]

/-- A value in front of the rest of a list is written as values are. -/
theorem written_of_value {c after : Cursor} {content tail raw : Text} {items : List Item}
    (h : value stop c = .ok (content, after)) (hafter : after.rest = raw ++ tail)
    (hraw : Listing raw items) :
    ∃ v : WrittenValue, c.rest = v.text ++ (raw ++ tail) ∧ v.Before raw ∧
      v.Clear stop (raw ++ tail) := by
  by_cases hquote : Breaks isQuote c.rest
  · rw [value_of_breaks hquote] at h
    cases h
    have hdrop : Text.dropUntil (endsBareValue stop) c.rest = raw ++ tail := hafter
    have hsplit := Text.takeUntil_append_dropUntil (endsBareValue stop) c.rest
    have hinside : ∀ s, s <:+ c.takeUntil (endsBareValue stop) → s ≠ [] →
        (s.head?.any isSeparator) = false ∧ stop.reached (s ++ (raw ++ tail)) = false := by
      intro s hs hne
      have hstop := Text.not_stop_of_suffix_takeUntil hs hne
      rw [hdrop, endsBareValue, Bool.or_eq_false_iff] at hstop
      obtain ⟨b, s, rfl⟩ := List.exists_cons_of_ne_nil hne
      exact hstop
    refine ⟨.bare (c.takeUntil (endsBareValue stop)), ?_, ⟨?_, ?_, ?_⟩, fun s hs hne => ?_⟩
    · rw [← hdrop]
      exact hsplit.symm
    · intro b hb
      obtain ⟨before, behind, hb⟩ := List.append_of_mem hb
      exact (hinside (b :: behind) ⟨before, hb.symm⟩ (List.cons_ne_nil _ _)).1
    · rw [← hsplit] at hquote
      exact hquote.left
    · exact breaks_of_endsBareValue hraw (hdrop ▸ Text.stop_dropUntil (endsBareValue stop))
    · exact (hinside s hs hne).2
  · obtain ⟨pos, t⟩ := c
    obtain ⟨quote, t, rfl, hisQuote⟩ := Text.exists_of_not_breaks hquote
    rw [value_of_isQuote hisQuote] at h
    by_cases hmem : quote ∈ t
    · obtain ⟨_, behind, rfl, hcontent⟩ := List.eq_append_cons_of_mem hmem
      rw [quotedValue_append hcontent] at h
      cases h
      refine ⟨.quoted quote content, ?_, ⟨hisQuote, hcontent⟩, trivial⟩
      rw [← show behind = raw ++ tail from hafter]
      simp [WrittenValue.text]
    · rw [quotedValue_of_not_mem hmem] at h
      cases h

/-! ### Entries -/

theorem entry_of_not_isKeyByte {b : UInt8} (h : isKeyByte b = false) :
    entry stop ⟨pos, b :: rest⟩ = .error (.unexpectedCharacter b pos) := by
  simp [entry, Cursor.peek?, Cursor.takeWhile, h]

/-- What an entry is, once its key is known. -/
theorem entry_of_isKey {key : Text} (hkey : IsKey key) (hends : Breaks isKeyByte rest) :
    entry stop ⟨pos, key ++ rest⟩ =
      if ((Cursor.mk (pos + key.length) rest).skipWhile isSpace).peek? = some equals then
        (value stop ((((Cursor.mk (pos + key.length) rest).skipWhile isSpace).advance 1).skipWhile
          isSpace)).map fun p => ((key, p.1), p.2)
      else .ok ((key, []), ⟨pos + key.length, rest⟩) := by
  have hempty : key.isEmpty = false := by simpa using hkey.ne_nil
  obtain ⟨b, t, hb, -⟩ := hkey.exists_cons
  have hpeek : (Cursor.mk pos (key ++ rest)).peek? = some b := by rw [hb]; rfl
  rw [entry, hpeek]
  simp only [Cursor.takeWhile_run hkey.bytes hends, Cursor.skipWhile_run hkey.bytes hends, hempty,
    Bool.false_eq_true, if_false]
  rfl

theorem entry_flag {key : Text} (hkey : IsKey key) (hends : Breaks isKeyByte rest)
    (hassigns : ¬ Assigns rest) :
    entry stop ⟨pos, key ++ rest⟩ = .ok ((key, []), ⟨pos + key.length, rest⟩) := by
  rw [entry_of_isKey hkey hends, if_neg]
  intro hsign
  obtain ⟨after, hafter⟩ := List.head?_eq_some_iff.1 hsign
  refine hassigns ⟨rest.takeWhile isSpace, after, fun b hb => List.mem_takeWhile_imp hb, ?_⟩
  rw [← show rest.dropWhile isSpace = _ from hafter, List.takeWhile_append_dropWhile]

theorem entry_assignment {key before after : Text} (hkey : IsKey key)
    (hbefore : ∀ b ∈ before, isSpace b = true) (hafter : ∀ b ∈ after, isSpace b = true)
    (hends : Breaks isSpace rest) :
    entry stop ⟨pos, key ++ (before ++ equals :: (after ++ rest))⟩ =
      (value stop ⟨pos + key.length + before.length + 1 + after.length, rest⟩).map
        fun p => ((key, p.1), p.2) := by
  have hsign : Breaks isSpace (equals :: (after ++ rest)) := breaks_cons (by decide)
  rw [entry_of_isKey hkey (breaks_sign hbefore), Cursor.skipWhile_run hbefore hsign]
  refine (if_pos rfl).trans ?_
  show (value stop ((Cursor.mk (pos + key.length + before.length + 1) (after ++ rest)).skipWhile
    isSpace)).map _ = _
  rw [Cursor.skipWhile_run hafter hends]

theorem entry_append {tail raw : Text} {item : Item} {e : Text × Text}
    (htail : stop.reached tail = true) (he : item.entry? = some e) (hitem : item.Before raw)
    (hclear : item.Clear stop (raw ++ tail)) :
    entry stop ⟨pos, item.text ++ (raw ++ tail)⟩ =
      .ok (e, ⟨pos + item.text.length, raw ++ tail⟩) := by
  have hkeyEnd : Breaks isKeyByte tail := breaks_of_reached htail (by decide) (by decide)
  have hspaceEnd : Breaks isSpace tail := breaks_of_reached htail (by decide) (by decide)
  cases item with
  | separator b => cases he
  | flag key =>
    cases he
    obtain ⟨hkey, hraw, hassigns⟩ := hitem
    exact entry_flag hkey ((breaks_isKeyByte hraw).append hkeyEnd)
      (mt (assigns_append htail).1 hassigns)
  | assignment key before after v =>
    cases he
    obtain ⟨hkey, hbefore, hafter, hgreedy, hv⟩ := hitem
    have hends : Breaks isSpace (v.text ++ (raw ++ tail)) := by
      rw [← List.append_assoc]
      exact hgreedy.append hspaceEnd
    have hread : entry stop ⟨pos, _⟩ = _ := entry_assignment hkey hbefore hafter hends
    rw [value_append htail hv hclear] at hread
    simp only [Item.text, List.append_assoc, List.cons_append, List.length_append,
      List.length_cons]
    rw [hread]
    simp only [Except.map, Except.ok.injEq, Prod.mk.injEq, Cursor.mk.injEq, and_true, true_and]
    omega

/-- An entry in front of the rest of a list is an item. -/
theorem item_of_entry {c after : Cursor} {e : Text × Text} {tail raw : Text} {items : List Item}
    (h : entry stop c = .ok (e, after)) (hafter : after.rest = raw ++ tail)
    (htail : stop.reached tail = true) (hraw : Listing raw items) :
    ∃ item : Item, c.rest = item.text ++ (raw ++ tail) ∧ item.Before raw ∧
      item.Clear stop (raw ++ tail) := by
  obtain ⟨pos, t⟩ := c
  rcases start_cases t with rfl | ⟨b, rest, rfl, hb⟩ | ⟨key, rest, rfl, hkey, hends, hassigns⟩ |
    ⟨key, before, behind, rest, rfl, hkey, hbefore, hbehind, hends⟩
  · cases h
  · rw [entry_of_not_isKeyByte hb] at h
    cases h
  · rw [entry_flag hkey hends hassigns] at h
    cases h
    obtain rfl : rest = raw ++ tail := hafter
    refine ⟨.flag key, rfl, ⟨hkey, ?_, mt (assigns_append htail).2 hassigns⟩, trivial⟩
    intro b hb
    rcases hraw.head_cases hb with hsep | hbKey
    · simp [hsep]
    · rw [hends.left b hb] at hbKey
      cases hbKey
  · rw [entry_assignment hkey hbefore hbehind hends] at h
    cases hvalue : value stop ⟨pos + key.length + before.length + 1 + behind.length, rest⟩ with
    | error e =>
      rw [hvalue] at h
      cases h
    | ok p =>
      rw [hvalue] at h
      cases h
      obtain ⟨v, hv, hbefore', hclear⟩ := written_of_value hvalue hafter hraw
      obtain rfl : rest = v.text ++ (raw ++ tail) := hv
      refine ⟨.assignment key before behind v, by simp [Item.text],
        ⟨hkey, hbefore, hbehind, ?_, hbefore'⟩, hclear⟩
      rw [← List.append_assoc] at hends
      exact hends.left

/-! ### Lists -/

theorem readInto_eq (args : Arguments) (c : Cursor) :
    readInto stop args c =
      if stop.reached (c.skipWhile isSeparator).rest then .ok (args, c.skipWhile isSeparator)
      else
        match entry stop (c.skipWhile isSeparator) with
        | .error e => .error e
        | .ok (e, after) => readInto stop (args.insert e.1 e.2) after := by
  rw [readInto]
  simp only
  split
  · rfl
  · split <;> rename_i h <;> rw [h]

/-- A separator in front of a list is passed over. -/
theorem readInto_separator (args : Arguments) {b : UInt8} (h : isSeparator b = true) :
    readInto stop args ⟨pos, b :: rest⟩ = readInto stop args ⟨pos + 1, rest⟩ := by
  have hskip : (Cursor.mk pos (b :: rest)).skipWhile isSeparator =
      (Cursor.mk (pos + 1) rest).skipWhile isSeparator := by
    simp only [Cursor.skipWhile, List.takeWhile_cons_of_pos h, List.dropWhile_cons_of_pos h,
      List.length_cons, Cursor.mk.injEq, and_true]
    omega
  rw [readInto_eq, hskip, ← readInto_eq]

/-- At a key an entry is read. -/
theorem readInto_key (args : Arguments) {t : Text} {b : UInt8} (hb : t.head? = some b)
    (hkey : isKeyByte b = true) :
    readInto stop args ⟨pos, t⟩ =
      match entry stop ⟨pos, t⟩ with
      | .error e => .error e
      | .ok (e, after) => readInto stop (args.insert e.1 e.2) after := by
  obtain ⟨t, rfl⟩ := List.head?_eq_some_iff.1 hb
  have hskip : (Cursor.mk pos (b :: t)).skipWhile isSeparator = ⟨pos, b :: t⟩ :=
    Cursor.skipWhile_of_breaks (breaks_cons (of_isKeyByte b hkey).1)
  rw [readInto_eq, hskip, reached_of_isKeyByte hkey]
  rfl

/-- A row of items that holds no end of the list is read whole. -/
theorem readInto_append {tail raw : Text} {items : List Item} (htail : stop.reached tail = true)
    (h : Listing raw items) (hclear : AllClear stop tail items) (args : Arguments) :
    readInto stop args ⟨pos, raw ++ tail⟩ =
      .ok (args.insertItems items, ⟨pos + raw.length, tail⟩) := by
  induction h generalizing pos args with
  | nil =>
    have hskip : (Cursor.mk pos tail).skipWhile isSeparator = ⟨pos, tail⟩ :=
      Cursor.skipWhile_of_breaks (breaks_of_reached htail (by decide) (by decide))
    rw [List.nil_append, readInto_eq, hskip, htail]
    rfl
  | @cons rest item items hitem hrest ih =>
    obtain ⟨hitemClear, hclear⟩ := hclear
    rw [hrest.text_eq] at hitemClear
    have hlength : pos + (item.text ++ rest).length = pos + item.text.length + rest.length := by
      rw [List.length_append, Nat.add_assoc]
    rw [List.append_assoc, hlength]
    rcases item.starts_cases hitem with ⟨b, rfl, hb⟩ | ⟨e, b, t, he, ht, hb⟩
    · exact (readInto_separator args hb).trans (ih hclear args)
    · have hhead : (item.text ++ (rest ++ tail)).head? = some b := by rw [ht]; rfl
      have hargs : args.insertItems (item :: items) = (args.insert e.1 e.2).insertItems items := by
        simp [insertItems, he]
      rw [readInto_key args hhead hb, entry_append htail he hitem hitemClear, hargs]
      exact ih hclear _

/-- What is read is a row of items that holds no end of the list. -/
theorem listing_of_readInto {args args' : Arguments} {c d : Cursor}
    (h : readInto stop args c = .ok (args', d)) :
    ∃ raw items, c.rest = raw ++ d.rest ∧ Listing raw items ∧ AllClear stop d.rest items := by
  induction hn : c.rest.length using Nat.strongRecOn generalizing c args with
  | _ n ih =>
    subst hn
    have htail := (reaches_of_readInto h).2
    have hseps : ∀ b ∈ c.takeWhile isSeparator, isSeparator b = true :=
      fun b hb => List.mem_takeWhile_imp hb
    have hsplit : c.takeWhile isSeparator ++ (c.skipWhile isSeparator).rest = c.rest :=
      List.takeWhile_append_dropWhile
    rw [readInto_eq] at h
    split at h
    · cases h
      have hlist := Listing.nil.separators hseps
      rw [List.append_nil] at hlist
      have hclear : AllClear stop (c.skipWhile isSeparator).rest [] := trivial
      exact ⟨_, _, hsplit.symm, hlist, hclear.separators⟩
    · split at h
      · cases h
      · rename_i e after hentry
        have hlt := Nat.lt_of_lt_of_le (length_entry_lt hentry)
          (Cursor.length_skipWhile_le isSeparator c)
        obtain ⟨raw, items, hafter, hraw, hclear⟩ := ih _ hlt h rfl
        obtain ⟨item, hitem, hbefore, hitemClear⟩ := item_of_entry hentry hafter htail hraw
        refine ⟨_, _, ?_, (Listing.cons hbefore hraw).separators hseps,
          AllClear.separators ⟨?_, hclear⟩⟩
        · rw [← hsplit, hitem]
          simp
        · rw [hraw.text_eq]
          exact hitemClear

/-- A list that is read is a row of items in front of its end, and the arguments are its entries. -/
theorem readInto_eq_ok_iff {args args' : Arguments} {c d : Cursor} :
    readInto stop args c = .ok (args', d) ↔
      ∃ raw items, c.rest = raw ++ d.rest ∧ d.pos = c.pos + raw.length ∧
        stop.reached d.rest = true ∧ Listing raw items ∧ AllClear stop d.rest items ∧
        args' = args.insertItems items := by
  obtain ⟨pos, t⟩ := c
  constructor
  · intro h
    have htail := (reaches_of_readInto h).2
    obtain ⟨raw, items, hrest, hlist, hclear⟩ := listing_of_readInto h
    obtain rfl : t = raw ++ d.rest := hrest
    rw [readInto_append htail hlist hclear] at h
    obtain ⟨hargs, hd⟩ := Prod.mk.inj (Except.ok.inj h)
    exact ⟨raw, items, rfl, by rw [← hd], htail, hlist, hclear, hargs.symm⟩
  · rintro ⟨raw, items, hrest, hpos, htail, hlist, hclear, rfl⟩
    obtain rfl : t = raw ++ d.rest := hrest
    rw [readInto_append htail hlist hclear, ← show d.pos = pos + raw.length from hpos]

end

end Arguments

/-! ## Errors -/

/-- The error names a byte that stands at its offset in `raw`: a quote that does not come again, or
a character that is neither a key's nor a separator.  It never says that the text ended. -/
def ArgumentError.PointsInto (raw : Text) : ArgumentError → Prop
  | .unterminatedQuote quote offset =>
    raw[offset]? = some quote ∧ isQuote quote = true ∧ quote ∉ raw.drop (offset + 1)
  | .unexpectedCharacter b offset =>
    raw[offset]? = some b ∧ isAscii b = true ∧ isKeyByte b = false ∧ isSeparator b = false
  | .unexpectedEnd _ => False

namespace Arguments

section

variable {stop : Terminator} {raw : Text} {c : Cursor} {e : ArgumentError}

theorem pointsInto_of_value (h : value stop c = .error e) (hc : c.Over raw) : e.PointsInto raw := by
  by_cases hquote : Breaks isQuote c.rest
  · rw [value_of_breaks hquote] at h
    cases h
  · obtain ⟨pos, t⟩ := c
    obtain ⟨quote, t, rfl, hisQuote⟩ := Text.exists_of_not_breaks hquote
    rw [value_of_isQuote hisQuote] at h
    by_cases hmem : quote ∈ t
    · obtain ⟨_, behind, rfl, hcontent⟩ := List.eq_append_cons_of_mem hmem
      rw [quotedValue_append hcontent] at h
      cases h
    · rw [quotedValue_of_not_mem hmem] at h
      cases h
      have hdrop : quote :: t = raw.drop pos := hc.2
      refine ⟨?_, hisQuote, ?_⟩
      · rw [← List.head?_drop, ← hdrop]
        rfl
      · rw [← List.drop_drop, ← hdrop]
        exact hmem

theorem pointsInto_of_entry (h : entry stop c = .error e) (hc : c.Over raw) (hne : c.rest ≠ [])
    (hsep : Breaks isSeparator c.rest) : e.PointsInto raw := by
  obtain ⟨pos, t⟩ := c
  rcases start_cases t with rfl | ⟨b, rest, rfl, hb⟩ | ⟨key, rest, rfl, hkey, hends, hassigns⟩ |
    ⟨key, before, behind, rest, rfl, hkey, hbefore, hbehind, hends⟩
  · exact absurd rfl hne
  · rw [entry_of_not_isKeyByte hb] at h
    cases h
    have hdrop : b :: rest = raw.drop pos := hc.2
    refine ⟨?_, isAscii_of_not_isKeyByte b hb, hb, hsep b rfl⟩
    rw [← List.head?_drop, ← hdrop]
    rfl
  · rw [entry_flag hkey hends hassigns] at h
    cases h
  · rw [entry_assignment hkey hbefore hbehind hends] at h
    cases hvalue : value stop ⟨pos + key.length + before.length + 1 + behind.length, rest⟩ with
    | ok p =>
      rw [hvalue] at h
      cases h
    | error e' =>
      rw [hvalue] at h
      cases h
      have hreach := Cursor.reaches_of_append (b := rest)
        (c := ⟨pos, key ++ (before ++ equals :: (behind ++ rest))⟩)
        (a := key ++ (before ++ equals :: behind)) (by simp)
      refine pointsInto_of_value hvalue (Cursor.Reaches.over ?_ hc)
      convert hreach using 2
      simp only [List.length_append, List.length_cons]
      omega

theorem pointsInto_of_readInto {args : Arguments} (h : readInto .endOfText args c = .error e)
    (hc : c.Over raw) : e.PointsInto raw := by
  induction hn : c.rest.length using Nat.strongRecOn generalizing c args with
  | _ n ih =>
    subst hn
    have hskip := (Cursor.reaches_skipWhile isSeparator c).over hc
    rw [readInto_eq] at h
    split at h
    · cases h
    · rename_i hreached
      split at h
      · rename_i hentry
        cases h
        refine pointsInto_of_entry hentry hskip (by simpa [Terminator.reached] using hreached) ?_
        exact breaks_dropWhile _ _
      · rename_i after hentry
        have hlt := Nat.lt_of_lt_of_le (length_entry_lt hentry)
          (Cursor.length_skipWhile_le isSeparator c)
        exact ih _ hlt h ((reaches_of_entry hentry).over hskip) rfl

end

/-! ## A whole text -/

theorem ofText_eq_ok_iff {raw : Text} {args : Arguments} :
    ofText raw = .ok args ↔
      ∃ items, Listing raw items ∧ args = ofList (items.filterMap Item.entry?) := by
  have hread : ofText raw = .ok args ↔
      ∃ d, readInto .endOfText empty (.ofText raw 0) = .ok (args, d) := by
    rw [ofText, read]
    cases readInto .endOfText empty (.ofText raw 0) with
    | error e => simp [Except.map]
    | ok p => simp [Except.map, Prod.ext_iff]
  rw [hread]
  constructor
  · rintro ⟨d, h⟩
    obtain ⟨raw', items, hraw, -, htail, hlist, -, rfl⟩ := readInto_eq_ok_iff.1 h
    have hend : d.rest = [] := by simpa [Terminator.reached] using htail
    rw [hend, List.append_nil] at hraw
    obtain rfl : raw = raw' := hraw
    exact ⟨items, hlist, rfl⟩
  · rintro ⟨items, hlist, rfl⟩
    refine ⟨⟨raw.length, []⟩, readInto_eq_ok_iff.2 ?_⟩
    exact ⟨raw, items, (List.append_nil raw).symm, (Nat.zero_add _).symm, rfl, hlist,
      allClear_endOfText items, rfl⟩

/-- A text is read iff it is a row of items, which it is in one way only; the arguments are the
entries of the items, inserted from left to right.  Any other text has a byte that is named. -/
theorem ofText_iff_listing (raw : Text) :
    (∀ args, ofText raw = .ok args ↔
      ∃ items, Listing raw items ∧ args = ofList (items.filterMap Item.entry?)) ∧
    (∀ items items', Listing raw items → Listing raw items' → items = items') ∧
    ∀ e, ofText raw = .error e → e.PointsInto raw := by
  refine ⟨fun args => ofText_eq_ok_iff, fun items items' => Listing.unique, fun e h => ?_⟩
  cases hread : readInto .endOfText empty (.ofText raw 0) with
  | error e' =>
    rw [ofText, read, hread] at h
    cases h
    exact pointsInto_of_readInto hread (Cursor.over_ofText raw)
  | ok p =>
    rw [ofText, read, hread] at h
    cases h

end Arguments

end Shortcode
