import Shortcode.Proofs.Boundaries

/-!
# The grammar of argument lists

A written argument list is a row of items: separators, keys alone, and keys with a value.  What an
item is depends on the text behind it, since runs of bytes are as long as they can be
(`Item.Before`).  A text is such a row in one way at most.

    Listing raw items → Listing raw items' → items = items'          (Listing.unique)
-/

namespace Shortcode

open Byte

/-! ## Bytes of a list -/

namespace Byte

theorem of_isKeyByte : ∀ b, isKeyByte b = true →
    isSeparator b = false ∧ isSpace b = false ∧ b ≠ equals ∧ b ≠ slash ∧ b ≠ rightBracket := by
  grind [isKeyByte, isSeparator]

theorem of_isSpace : ∀ b, isSpace b = true →
    isSeparator b = true ∧ isKeyByte b = false ∧ b ≠ equals ∧ b ≠ slash := by
  grind [isKeyByte, isSeparator, isSpace]

theorem of_isSeparator : ∀ b, isSeparator b = true →
    isKeyByte b = false ∧ isQuote b = false ∧ b ≠ slash ∧ b ≠ rightBracket := by
  grind [isKeyByte, isSeparator, isSpace, isQuote]

theorem of_isQuote : ∀ b, isQuote b = true →
    isSeparator b = false ∧ isSpace b = false ∧ b ≠ slash ∧ b ≠ rightBracket := by
  grind [isSeparator, isSpace, isQuote]

end Byte

/-! ## Runs -/

namespace Text

variable {p q : UInt8 → Bool} {a b r s t : Text}

/-- A run of bytes that satisfy `p` breaks off in front of this text. -/
def Breaks (p : UInt8 → Bool) (t : Text) : Prop := ∀ b, t.head? = some b → p b = false

theorem breaks_nil : Breaks p [] := nofun

theorem breaks_cons {x : UInt8} (h : p x = false) : Breaks p (x :: t) := by
  rintro _ ⟨⟩
  exact h

/-- What follows the longest run. -/
theorem breaks_dropWhile (p : UInt8 → Bool) (t : Text) : Breaks p (t.dropWhile p) := by
  intro b hb
  have hhead := List.head?_dropWhile_not p t
  rw [hb] at hhead
  exact hhead

theorem exists_of_not_breaks (h : ¬ Breaks p t) : ∃ b rest, t = b :: rest ∧ p b = true := by
  cases t with
  | nil => exact absurd breaks_nil h
  | cons b rest =>
    refine ⟨b, rest, rfl, ?_⟩
    cases hb : p b with
    | false => exact absurd (breaks_cons hb) h
    | true => rfl

theorem Breaks.mono (h : Breaks p t) (himp : ∀ x, p x = false → q x = false) : Breaks q t :=
  fun x hx => himp x (h x hx)

theorem Breaks.append (ha : Breaks p a) (hb : Breaks p b) : Breaks p (a ++ b) := by
  cases a with
  | nil => exact hb
  | cons x a => exact breaks_cons (ha x rfl)

theorem Breaks.left (h : Breaks p (a ++ b)) : Breaks p a := by
  cases a with
  | nil => exact breaks_nil
  | cons x a => exact breaks_cons (h x rfl)

/-- A run that breaks off is cut from what follows in one way. -/
theorem Breaks.append_inj (hr : Breaks p r) (hs : Breaks p s) (ha : ∀ x ∈ a, p x = true)
    (hb : ∀ x ∈ b, p x = true) (h : a ++ r = b ++ s) : a = b ∧ r = s := by
  have hsplit : ∀ {u v : Text}, Breaks p v → (∀ x ∈ u, p x = true) → (u ++ v).takeWhile p = u := by
    intro u v hv hu
    exact (Cursor.takeWhile_of_append (c := ⟨0, u ++ v⟩) rfl hu hv).1
  have hab : a = b := by rw [← hsplit hr ha, h, hsplit hs hb]
  exact ⟨hab, List.append_cancel_left (hab ▸ h)⟩

/-- A search that finds nothing inside a run and something behind it gives the run. -/
theorem takeUntil_append {stop : Text → Bool}
    (ha : ∀ s, s <:+ a → s ≠ [] → stop (s ++ r) = false) (hr : r ≠ [] → stop r = true) :
    takeUntil stop (a ++ r) = a ∧ dropUntil stop (a ++ r) = r := by
  induction a with
  | nil =>
    cases r with
    | nil => exact ⟨rfl, rfl⟩
    | cons x r => simp [takeUntil, dropUntil, hr (List.cons_ne_nil x r)]
  | cons x a ih =>
    have hx := ha (x :: a) List.suffix_rfl (List.cons_ne_nil x a)
    obtain ⟨htake, hdrop⟩ := ih fun s hs => ha s (hs.trans (List.suffix_cons x a))
    rw [List.cons_append] at hx ⊢
    simp [takeUntil, dropUntil, hx, htake, hdrop]

/-- A search finds nothing inside the run that it passes over. -/
theorem not_stop_of_suffix_takeUntil {stop : Text → Bool} (hs : s <:+ takeUntil stop t)
    (hne : s ≠ []) : stop (s ++ dropUntil stop t) = false := by
  induction t with
  | nil => exact absurd (List.suffix_nil.1 hs) hne
  | cons x t ih =>
    rw [takeUntil] at hs
    rw [dropUntil]
    split at hs
    · exact absurd (List.suffix_nil.1 hs) hne
    · rename_i hx
      rw [if_neg hx]
      rcases List.suffix_cons_iff.1 hs with rfl | hs
      · rw [List.cons_append, takeUntil_append_dropUntil]
        exact Bool.eq_false_iff.2 hx
      · exact ih hs

end Text

open Text (Breaks breaks_nil breaks_cons breaks_dropWhile)

namespace Cursor

variable {p : UInt8 → Bool} {pos : Nat} {run after : Text}

theorem takeWhile_run (hrun : ∀ b ∈ run, p b = true) (hafter : Breaks p after) :
    (Cursor.mk pos (run ++ after)).takeWhile p = run :=
  (takeWhile_of_append rfl hrun hafter).1

theorem skipWhile_run (hrun : ∀ b ∈ run, p b = true) (hafter : Breaks p after) :
    (Cursor.mk pos (run ++ after)).skipWhile p = ⟨pos + run.length, after⟩ := by
  obtain ⟨htake, hrest⟩ := takeWhile_of_append (c := ⟨pos, run ++ after⟩) rfl hrun hafter
  show Cursor.mk (pos + ((Cursor.mk pos (run ++ after)).takeWhile p).length)
    ((Cursor.mk pos (run ++ after)).skipWhile p).rest = ⟨pos + run.length, after⟩
  rw [htake, hrest]

theorem skipWhile_of_breaks (h : Breaks p after) :
    (Cursor.mk pos after).skipWhile p = ⟨pos, after⟩ :=
  skipWhile_run (List.forall_mem_nil _) h

end Cursor

/-! ## Grammar -/

namespace Arguments

/-- How a value is written. -/
inductive WrittenValue where
  | quoted (quote : UInt8) (content : Text)
  | bare (run : Text)

namespace WrittenValue

def text : WrittenValue → Text
  | quoted quote content => quote :: (content ++ [quote])
  | bare run => run

def content : WrittenValue → Text
  | quoted _ content => content
  | bare run => run

/-- What stands in no quotes. -/
def unquoted : WrittenValue → Text
  | quoted .. => []
  | bare run => run

/-- A value that ends in front of `rest`.  One without quotes goes on to the next separator. -/
def Before (rest : Text) : WrittenValue → Prop
  | quoted quote content => isQuote quote = true ∧ quote ∉ content
  | bare run => (∀ b ∈ run, isSeparator b = false) ∧ Breaks isQuote run ∧
      Breaks (!isSeparator ·) rest

end WrittenValue

/-- A part of a written list. -/
inductive Item where
  /-- White space or a comma. -/
  | separator (b : UInt8)
  /-- A key alone. -/
  | flag (key : Text)
  /-- A key and a value, with white space `before` the `=` and `after` it. -/
  | assignment (key before after : Text) (value : WrittenValue)

/-- Whether a `=` comes next, after white space or at once. -/
def Assigns (rest : Text) : Prop :=
  ∃ spaces after, (∀ b ∈ spaces, isSpace b = true) ∧ rest = spaces ++ equals :: after

structure IsKey (key : Text) : Prop where
  ne_nil : key ≠ []
  bytes : ∀ b ∈ key, isKeyByte b = true

namespace Item

def text : Item → Text
  | separator b => [b]
  | flag key => key
  | assignment key before after value => key ++ (before ++ equals :: (after ++ value.text))

/-- The key and the value; those of a key alone are the key and nothing. -/
def entry? : Item → Option (Text × Text)
  | separator _ => none
  | flag key => some (key, [])
  | assignment key _ _ value => some (key, value.content)

/-- What stands in no quotes. -/
def unquoted : Item → Text
  | separator b => [b]
  | flag key => key
  | assignment key before after value => key ++ (before ++ equals :: (after ++ value.unquoted))

/-- An item that ends in front of `rest`.  A key alone is followed by a separator or by nothing, and
no `=` comes next; the white space behind a `=` is all that there is. -/
def Before (rest : Text) : Item → Prop
  | separator b => isSeparator b = true
  | flag key => IsKey key ∧ Breaks (!isSeparator ·) rest ∧ ¬ Assigns rest
  | assignment key before after value => IsKey key ∧ (∀ b ∈ before, isSpace b = true) ∧
      (∀ b ∈ after, isSpace b = true) ∧ Breaks isSpace (value.text ++ rest) ∧ value.Before rest

end Item

/-- A text that is a row of items. -/
inductive Listing : Text → List Item → Prop
  | nil : Listing [] []
  | cons {rest : Text} {item : Item} {items : List Item} :
      item.Before rest → Listing rest items → Listing (item.text ++ rest) (item :: items)

/-- Inserts the entries of items from left to right. -/
def insertItems (args : Arguments) (items : List Item) : Arguments :=
  (items.filterMap Item.entry?).foldl (fun args e => args.insert e.1 e.2) args

/-! ## One row at most -/

section

variable {rest rest' : Text}

/-- A separator ends a key too. -/
theorem breaks_isKeyByte (h : Breaks (!isSeparator ·) rest) : Breaks isKeyByte rest :=
  h.mono fun b hb => (of_isSeparator b (by simpa using hb)).1

/-- White space and a `=` behind a key end it. -/
theorem breaks_sign {before : Text} (h : ∀ b ∈ before, isSpace b = true) :
    Breaks isKeyByte (before ++ equals :: rest) :=
  Breaks.append (fun b hb => (of_isSpace b (h b (List.mem_of_mem_head? hb))).2.1)
    (breaks_cons (by decide))

theorem IsKey.exists_cons {key : Text} (h : IsKey key) :
    ∃ b rest, key = b :: rest ∧ isKeyByte b = true := by
  obtain ⟨b, rest, rfl⟩ := List.exists_cons_of_ne_nil h.ne_nil
  exact ⟨b, rest, rfl, h.bytes b List.mem_cons_self⟩

namespace WrittenValue

/-- A value without quotes and what follows it do not start with a quote. -/
theorem breaks_isQuote {run : Text} (h : (bare run).Before rest) : Breaks isQuote (run ++ rest) :=
  h.2.1.append (h.2.2.mono fun b hb => (of_isSeparator b (by simpa using hb)).2.1)

theorem quoted_ne_bare {quote : UInt8} {content run : Text}
    (hv : (quoted quote content).Before rest) (hw : (bare run).Before rest') :
    (quoted quote content).text ++ rest ≠ (bare run).text ++ rest' := by
  intro h
  have hquote := breaks_isQuote hw quote (by rw [← show _ = run ++ rest' from h]; rfl)
  rw [hv.1] at hquote
  cases hquote

theorem before_unique {v w : WrittenValue} (hv : v.Before rest) (hw : w.Before rest')
    (h : v.text ++ rest = w.text ++ rest') : v = w ∧ rest = rest' := by
  cases v with
  | quoted quote content =>
    cases w with
    | quoted quote' content' =>
      simp only [text, List.cons_append, List.append_assoc, List.cons.injEq] at h
      obtain ⟨rfl, h⟩ := h
      have hends : ∀ t, Breaks (· != quote) (quote :: t) := fun t => breaks_cons (by simp)
      have hinside : ∀ {t : Text}, quote ∉ t → ∀ x ∈ t, (x != quote) = true := by
        intro t ht x hx
        simpa using fun hxq : x = quote => ht (hxq ▸ hx)
      obtain ⟨rfl, hafter⟩ := (hends _).append_inj (hends _) (hinside hv.2) (hinside hw.2) h
      exact ⟨rfl, (List.cons.inj hafter).2⟩
    | bare run => exact absurd h (quoted_ne_bare hv hw)
  | bare run =>
    cases w with
    | quoted quote content => exact absurd h.symm (quoted_ne_bare hw hv)
    | bare run' =>
      obtain ⟨hrun, -, hrest⟩ := hv
      obtain ⟨hrun', -, hrest'⟩ := hw
      obtain ⟨rfl, rfl⟩ := hrest.append_inj (a := run) (b := run') hrest' (by simpa using hrun)
        (by simpa using hrun') h
      exact ⟨rfl, rfl⟩

end WrittenValue

namespace Item

theorem flag_ne_assignment {key key' before after : Text} {value : WrittenValue}
    (h : (flag key).Before rest) (h' : (assignment key' before after value).Before rest') :
    (flag key).text ++ rest ≠ (assignment key' before after value).text ++ rest' := by
  obtain ⟨hkey, hrest, hassigns⟩ := h
  obtain ⟨hkey', hbefore, -, -, -⟩ := h'
  intro he
  simp only [text, List.append_assoc, List.cons_append] at he
  obtain ⟨-, rfl⟩ := (breaks_isKeyByte hrest).append_inj (breaks_sign hbefore) hkey.bytes
    hkey'.bytes he
  exact hassigns ⟨before, _, hbefore, rfl⟩

theorem assignment_unique {key key' before before' after after' : Text}
    {value value' : WrittenValue} (h : (assignment key before after value).Before rest)
    (h' : (assignment key' before' after' value').Before rest')
    (he : (assignment key before after value).text ++ rest =
      (assignment key' before' after' value').text ++ rest') :
    assignment key before after value = assignment key' before' after' value' ∧ rest = rest' := by
  obtain ⟨hkey, hbefore, hafter, hgreedy, hvalue⟩ := h
  obtain ⟨hkey', hbefore', hafter', hgreedy', hvalue'⟩ := h'
  simp only [text, List.append_assoc, List.cons_append] at he
  have hsign : ∀ t, Breaks isSpace (equals :: t) := fun t => breaks_cons (by decide)
  obtain ⟨rfl, hspace⟩ := (breaks_sign hbefore).append_inj (breaks_sign hbefore') hkey.bytes
    hkey'.bytes he
  obtain ⟨rfl, hassign⟩ := (hsign _).append_inj (hsign _) hbefore hbefore' hspace
  obtain ⟨rfl, htext⟩ := hgreedy.append_inj hgreedy' hafter hafter' (List.cons.inj hassign).2
  obtain ⟨rfl, rfl⟩ := WrittenValue.before_unique hvalue hvalue' htext
  exact ⟨rfl, rfl⟩

/-- An item is a separator, or it has an entry and starts with its key. -/
theorem starts_cases {item : Item} (h : item.Before rest) :
    (∃ b, item = separator b ∧ isSeparator b = true) ∨
      ∃ e b t, item.entry? = some e ∧ item.text = b :: t ∧ isKeyByte b = true := by
  cases item with
  | separator b => exact .inl ⟨b, rfl, h⟩
  | flag key =>
    obtain ⟨b, t, rfl, hb⟩ := h.1.exists_cons
    exact .inr ⟨_, b, t, rfl, rfl, hb⟩
  | assignment key before after value =>
    obtain ⟨b, t, rfl, hb⟩ := h.1.exists_cons
    exact .inr ⟨_, b, _, rfl, rfl, hb⟩

theorem separator_unique {b : UInt8} {item : Item} (hb : isSeparator b = true)
    (h : item.Before rest') (he : (separator b).text ++ rest = item.text ++ rest') :
    separator b = item ∧ rest = rest' := by
  rcases starts_cases h with ⟨b', rfl, -⟩ | ⟨-, b', t, -, ht, hb'⟩
  · obtain ⟨rfl, rfl⟩ := List.cons.inj he
    exact ⟨rfl, rfl⟩
  · rw [ht] at he
    rw [(List.cons.inj he).1, (of_isKeyByte b' hb').1] at hb
    cases hb

/-- What an item is and where it ends is settled by the text from there on. -/
theorem before_unique {item item' : Item} (h : item.Before rest) (h' : item'.Before rest')
    (he : item.text ++ rest = item'.text ++ rest') : item = item' ∧ rest = rest' := by
  cases item with
  | separator b => exact separator_unique h h' he
  | flag key =>
    cases item' with
    | separator b => exact (separator_unique h' h he.symm).imp Eq.symm Eq.symm
    | flag key' =>
      obtain ⟨rfl, rfl⟩ := (breaks_isKeyByte h.2.1).append_inj (breaks_isKeyByte h'.2.1)
        h.1.bytes h'.1.bytes he
      exact ⟨rfl, rfl⟩
    | assignment key' before after value => exact absurd he (flag_ne_assignment h h')
  | assignment key before after value =>
    cases item' with
    | separator b => exact (separator_unique h' h he.symm).imp Eq.symm Eq.symm
    | flag key' => exact absurd he.symm (flag_ne_assignment h' h)
    | assignment key' before' after' value' => exact assignment_unique h h' he

end Item

/-- A text is a row of items in one way at most. -/
theorem Listing.unique {raw : Text} {items items' : List Item} (h : Listing raw items)
    (h' : Listing raw items') : items = items' := by
  induction h generalizing items' with
  | nil =>
    generalize hraw : ([] : Text) = raw at h'
    cases h' with
    | nil => rfl
    | cons hitem _ =>
      rcases Item.starts_cases hitem with ⟨b, rfl, -⟩ | ⟨-, b, t, -, ht, -⟩
      · cases hraw
      · rw [ht] at hraw
        cases hraw
  | @cons rest item items hitem _ ih =>
    generalize hraw : item.text ++ rest = raw at h'
    cases h' with
    | nil =>
      rcases Item.starts_cases hitem with ⟨b, rfl, -⟩ | ⟨-, b, t, -, ht, -⟩
      · cases hraw
      · rw [ht] at hraw
        cases hraw
    | cons hitem' htail =>
      obtain ⟨rfl, rfl⟩ := Item.before_unique hitem hitem' hraw
      rw [ih htail]

theorem Listing.text_eq {raw : Text} {items : List Item} (h : Listing raw items) :
    items.flatMap Item.text = raw := by
  induction h with
  | nil => rfl
  | cons _ _ ih => rw [List.flatMap_cons, ih]

/-- A list starts with a separator or a key. -/
theorem Listing.head_cases {raw : Text} {items : List Item} (h : Listing raw items) {b : UInt8}
    (hb : raw.head? = some b) : isSeparator b = true ∨ isKeyByte b = true := by
  cases h with
  | nil => cases hb
  | cons hitem _ =>
    rcases Item.starts_cases hitem with ⟨x, rfl, hx⟩ | ⟨-, x, t, -, ht, hx⟩
    · cases hb
      exact .inl hx
    · rw [ht] at hb
      cases hb
      exact .inr hx

theorem Listing.separators {seps raw : Text} {items : List Item}
    (hseps : ∀ b ∈ seps, isSeparator b = true) (h : Listing raw items) :
    Listing (seps ++ raw) (seps.map .separator ++ items) := by
  induction seps with
  | nil => exact h
  | cons b seps ih =>
    obtain ⟨hb, hseps⟩ := List.forall_mem_cons.1 hseps
    have hitem : (Item.separator b).Before (seps ++ raw) := hb
    exact .cons hitem (ih hseps)

end

end Arguments

end Shortcode
