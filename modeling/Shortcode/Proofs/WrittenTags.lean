import Shortcode.Proofs.ArgumentGrammar
import Shortcode.Proofs.TokenTwins

/-!
# Written start tags

A `StartTag.Written` is a start tag with all that is free in writing one: the case of its names, the
white space between its parts, the notation of each value, and how the tag ends.  Its text is read
back as it was written, whatever stands behind it.

    Token.read? ⟨pos, tag.text ++ after⟩ =
      some (.start (tag.read pos), ⟨pos + tag.text.length, after⟩)                 (read?_text)
-/

namespace Shortcode

open Byte
open Text (Breaks breaks_cons)

namespace Byte

theorem of_isLetter : ∀ b, isLetter b = true →
    isElementNameByte b = true ∧ b ≠ bang ∧ b ≠ question ∧ b ≠ slash := by
  grind [isLetter, isElementNameByte, isSpace]

theorem of_isAttributeNameByte : ∀ b, isAttributeNameByte b = true →
    isSpace b = false ∧ b ≠ equals ∧ b ≠ slash ∧ b ≠ greater := by
  grind [isAttributeNameByte]

/-- White space ends whatever stands in a tag without quotes. -/
theorem of_isSpace_in_tag : ∀ b, isSpace b = true → isAttributeNameByte b = false ∧
    isElementNameByte b = false ∧ isUnquotedValueByte b = false := by
  grind [isAttributeNameByte, isElementNameByte, isUnquotedValueByte]

end Byte

/-! ## Writing -/

/-- A text of white space. -/
def Text.IsBlankRun (t : Text) : Prop := ∀ b ∈ t, isSpace b = true

instance (t : Text) : Decidable t.IsBlankRun :=
  inferInstanceAs (Decidable (∀ b ∈ t, isSpace b = true))

namespace Attribute

/-- How a value is written: between quotes that do not stand in it, or without quotes. -/
inductive WrittenValue where
  | quoted (quote : UInt8) (content : Text) (isQuote_quote : isQuote quote = true)
      (notMem : quote ∉ content)
  | bare (content : Text) (ne_nil : content ≠ [])
      (bytes : ∀ b ∈ content, isUnquotedValueByte b = true) (front : Breaks isQuote content)

namespace WrittenValue

def text : WrittenValue → Text
  | quoted quote content _ _ => quote :: (content ++ [quote])
  | bare content _ _ _ => content

def content : WrittenValue → Text
  | quoted _ content _ _ => content
  | bare content _ _ _ => content

/-- Where the content stands if the value is written at `pos`. -/
def span (pos : Nat) : WrittenValue → Span
  | quoted _ content _ _ => ⟨pos + 1, pos + 1 + content.length⟩
  | bare content _ _ _ => ⟨pos, pos + content.length⟩

/-- A value that ends in front of `rest`.  Without quotes it ends in front of white space or a
`>`. -/
def Before (rest : Text) : WrittenValue → Prop
  | quoted .. => True
  | bare .. => Breaks isUnquotedValueByte rest

theorem before_of_breaks {rest : Text} (h : Breaks isUnquotedValueByte rest) (v : WrittenValue) :
    v.Before rest := by
  cases v with
  | quoted => trivial
  | bare => exact h

/-- A value does not start with white space. -/
theorem breaks_isSpace (v : WrittenValue) (rest : Text) : Breaks isSpace (v.text ++ rest) := by
  cases v with
  | quoted quote content hquote _ => exact breaks_cons (of_isQuote quote hquote).2.1
  | bare content hne hbytes _ =>
    obtain ⟨b, more, rfl⟩ := List.exists_cons_of_ne_nil hne
    refine breaks_cons (Bool.eq_false_iff.2 fun hb => ?_)
    have hvalue := hbytes b List.mem_cons_self
    rw [(of_isSpace_in_tag b hb).2.2] at hvalue
    cases hvalue

end WrittenValue

/-- A `=` with a value behind it, and white space on either side of the `=`. -/
structure Assignment where
  before : Text
  after : Text
  value : WrittenValue
  before_space : before.IsBlankRun
  after_space : after.IsBlankRun

namespace Assignment

def text (s : Assignment) : Text := s.before ++ equals :: (s.after ++ s.value.text)

def span (pos : Nat) (s : Assignment) : Span :=
  s.value.span (pos + s.before.length + 1 + s.after.length)

end Assignment

/-- An attribute with the white space in front of it. -/
structure Written where
  gap : Text
  name : Text
  assignment : Option Assignment
  gap_ne_nil : gap ≠ []
  gap_space : gap.IsBlankRun
  name_ne_nil : name ≠ []
  name_bytes : ∀ b ∈ name, isAttributeNameByte b = true

namespace Written

theorem exists_name (a : Written) :
    ∃ first more, a.name = first :: more ∧ isAttributeNameByte first = true := by
  obtain ⟨first, more, hname⟩ := List.exists_cons_of_ne_nil a.name_ne_nil
  exact ⟨first, more, hname, a.name_bytes first (hname ▸ List.mem_cons_self)⟩

/-- What stands behind the name. -/
def assigned (a : Written) : Text := (a.assignment.map (·.text)).getD []

def text (a : Written) : Text := a.gap ++ (a.name ++ a.assigned)

/-- The value as it is written; none for a name alone. -/
def value? (a : Written) : Option Text := a.assignment.map (·.value.content)

/-- What is to be read where the attribute is written at `pos`. -/
def read (pos : Nat) (a : Written) : Attribute :=
  ⟨Text.lower a.name, a.assignment.map (·.span (pos + a.gap.length + a.name.length))⟩

/-- What is to be read where attributes are written one after the other from `pos` on. -/
def readEach : Nat → List Written → List Attribute
  | _, [] => []
  | pos, a :: as => a.read pos :: readEach (pos + a.text.length) as

end Written

end Attribute

namespace StartTag

/-- How a start tag ends.  A `/>` has white space in front of it, so that it is not taken for a part
of what comes before. -/
inductive Closing where
  | plain (gap : Text) (gap_space : gap.IsBlankRun)
  | selfClosing (gap : Text) (gap_ne_nil : gap ≠ []) (gap_space : gap.IsBlankRun)

namespace Closing

def text : Closing → Text
  | plain gap _ => gap ++ [greater]
  | selfClosing gap _ _ => gap ++ [slash, greater]

def isSelfClosing : Closing → Bool
  | plain .. => false
  | selfClosing .. => true

end Closing

/-- A start tag as it is written. -/
structure Written where
  /-- The first letter of the name. -/
  letter : UInt8
  /-- The rest of the name. -/
  more : Text
  attributes : List Attribute.Written
  closing : Closing
  isLetter_letter : isLetter letter = true
  more_bytes : ∀ b ∈ more, isElementNameByte b = true

namespace Written

def name (tag : Written) : Text := tag.letter :: tag.more

/-- What stands behind the name. -/
def tail (attributes : List Attribute.Written) (closing : Closing) : Text :=
  attributes.flatMap (·.text) ++ closing.text

def text (tag : Written) : Text := less :: (tag.name ++ tail tag.attributes tag.closing)

/-- What is to be read where the tag is written at `pos`. -/
def read (pos : Nat) (tag : Written) : StartTag :=
  ⟨Text.lower tag.name, ⟨pos, pos + tag.text.length⟩,
    Attribute.Written.readEach (pos + 1 + tag.name.length) tag.attributes,
    tag.closing.isSelfClosing⟩

end Written

end StartTag

/-! ## Reading values -/

namespace Attribute

theorem readValue?_text (v : WrittenValue) (pos : Nat) {after : Text} (hafter : v.Before after) :
    readValue? ⟨pos, v.text ++ after⟩ = some (v.span pos, ⟨pos + v.text.length, after⟩) := by
  cases v with
  | quoted quote content hquote hnot =>
    have hinside : ∀ b ∈ content, (b != quote) = true := by
      intro b hb
      simpa using fun he : b = quote => hnot (he ▸ hb)
    have hlast : (Cursor.mk (pos + 1) (content ++ quote :: after)).skipWhile (· != quote) =
        ⟨pos + 1 + content.length, quote :: after⟩ :=
      Cursor.skipWhile_run hinside (breaks_cons (by simp))
    have hrest : (WrittenValue.quoted quote content hquote hnot).text ++ after =
        quote :: (content ++ quote :: after) := by
      simp [WrittenValue.text]
    rw [hrest, readValue?]
    simp only [Cursor.peek?, Cursor.advance, List.head?_cons, List.drop_succ_cons, List.drop_zero,
      hquote, if_true, hlast, Cursor.atEnd, List.isEmpty_cons, Bool.false_eq_true, if_false,
      Cursor.spanTo, WrittenValue.span, WrittenValue.text, List.length_cons, List.length_append,
      List.length_nil]
    congr 3
    omega
  | bare content hne hbytes hfront =>
    obtain ⟨b, rest, rfl⟩ := List.exists_cons_of_ne_nil hne
    have hb : isQuote b = false := hfront b rfl
    have hlast : (Cursor.mk pos ((b :: rest) ++ after)).skipWhile isUnquotedValueByte =
        ⟨pos + (b :: rest).length, after⟩ := Cursor.skipWhile_run hbytes hafter
    show readValue? ⟨pos, (b :: rest) ++ after⟩ = _
    rw [readValue?]
    simp only [hlast]
    simp [Cursor.peek?, hb, Cursor.spanTo, WrittenValue.span, WrittenValue.text]

/-! ## Reading attributes -/

/-- What may stand behind an attribute: white space, and then neither more of it nor a `=`.  Without
white space it is the end of the tag. -/
structure Behind (spaces : Text) (b : UInt8) : Prop where
  spaces_space : spaces.IsBlankRun
  not_space : isSpace b = false
  ne_equals : b ≠ equals
  greater_of_nil : spaces = [] → b = greater

theorem Behind.breaks {spaces : Text} {b : UInt8} (h : Behind spaces b) {p : UInt8 → Bool}
    (hspace : ∀ x, isSpace x = true → p x = false) (hgreater : p greater = false) (rest : Text) :
    Breaks p (spaces ++ b :: rest) := by
  cases spaces with
  | nil => exact breaks_cons (h.greater_of_nil rfl ▸ hgreater)
  | cons x spaces => exact breaks_cons (hspace x (h.spaces_space x List.mem_cons_self))

theorem breaks_assignment (s : Assignment) (rest : Text) :
    Breaks isAttributeNameByte (s.text ++ rest) := by
  obtain ⟨before, after, value, hbefore, -⟩ := s
  cases before with
  | nil => exact breaks_cons (by decide)
  | cons x before =>
    exact breaks_cons (of_isSpace_in_tag x (hbefore x List.mem_cons_self)).1

/-- The name of an attribute is read first, and a `=` is looked for behind it. -/
theorem read?_name {more tail : Text} (hmore : ∀ b ∈ more, isAttributeNameByte b = true)
    (htail : Breaks isAttributeNameByte tail) (first : UInt8) (pos : Nat) :
    read? ⟨pos, (first :: more) ++ tail⟩ =
      let sign := (Cursor.mk (pos + (first :: more).length) tail).skipWhile isSpace
      if sign.peek? = some equals then
        (readValue? ((sign.advance 1).skipWhile isSpace)).map fun (value, after) =>
          (⟨Text.lower (first :: more), some value⟩, after)
      else some (⟨Text.lower (first :: more), none⟩, ⟨pos + (first :: more).length, tail⟩) := by
  have hname : ((Cursor.mk pos ((first :: more) ++ tail)).advance 1).skipWhile isAttributeNameByte =
      ⟨pos + (first :: more).length, tail⟩ := by
    have hrun : (Cursor.mk (pos + 1) (more ++ tail)).skipWhile isAttributeNameByte =
        ⟨pos + 1 + more.length, tail⟩ := Cursor.skipWhile_run hmore htail
    rw [List.length_cons, Nat.add_comm more.length, ← Nat.add_assoc]
    exact hrun
  have hslice : (Cursor.mk pos ((first :: more) ++ tail)).slice
      ⟨pos, pos + (first :: more).length⟩ = first :: more := by
    rw [Cursor.slice, Span.length, Nat.sub_self, List.drop_zero, Nat.add_sub_cancel_left,
      List.take_left]
  simp only [read?, hname, Cursor.spanTo, hslice]

/-- A `=` behind a name is followed by the value. -/
theorem read?_assigned {more after : Text} (hmore : ∀ b ∈ more, isAttributeNameByte b = true)
    (s : Assignment) (hafter : s.value.Before after) (first : UInt8) (pos : Nat) :
    read? ⟨pos, (first :: more) ++ (s.text ++ after)⟩ =
      some (⟨Text.lower (first :: more), some (s.span (pos + (first :: more).length))⟩,
        ⟨pos + (first :: more).length + s.text.length, after⟩) := by
  rw [read?_name hmore (breaks_assignment s after)]
  generalize first :: more = name
  obtain ⟨spaces, spaces', value, hspaces, hspaces'⟩ := s
  have htext : Assignment.text ⟨spaces, spaces', value, hspaces, hspaces'⟩ ++ after =
      spaces ++ equals :: (spaces' ++ (value.text ++ after)) := by
    simp [Assignment.text]
  have hsign : (Cursor.mk (pos + name.length)
      (spaces ++ equals :: (spaces' ++ (value.text ++ after)))).skipWhile isSpace =
      ⟨pos + name.length + spaces.length, equals :: (spaces' ++ (value.text ++ after))⟩ :=
    Cursor.skipWhile_run hspaces (breaks_cons (by decide))
  have hvalue : (Cursor.mk (pos + name.length + spaces.length + 1)
      (spaces' ++ (value.text ++ after))).skipWhile isSpace =
      ⟨pos + name.length + spaces.length + 1 + spaces'.length, value.text ++ after⟩ :=
    Cursor.skipWhile_run hspaces' (value.breaks_isSpace after)
  rw [htext]
  dsimp only
  rw [hsign, if_pos (by rfl)]
  simp only [Cursor.advance, List.drop_succ_cons, List.drop_zero]
  rw [hvalue, readValue?_text value _ hafter]
  simp only [Option.map_some, Assignment.span, Assignment.text, List.length_append,
    List.length_cons]
  congr 3
  omega

section

variable {spaces : Text} {b : UInt8} (hbehind : Behind spaces b) (pos : Nat) (rest : Text)

include hbehind

theorem read?_flag {name : Text} (hne : name ≠ [])
    (hbytes : ∀ b ∈ name, isAttributeNameByte b = true) :
    read? ⟨pos, name ++ (spaces ++ b :: rest)⟩ =
      some (⟨Text.lower name, none⟩, ⟨pos + name.length, spaces ++ b :: rest⟩) := by
  have htail := hbehind.breaks (p := isAttributeNameByte)
    (fun x hx => (of_isSpace_in_tag x hx).1) (by decide) rest
  have hsign : (Cursor.mk (pos + name.length) (spaces ++ b :: rest)).skipWhile isSpace =
      ⟨pos + name.length + spaces.length, b :: rest⟩ :=
    Cursor.skipWhile_run hbehind.spaces_space (breaks_cons hbehind.not_space)
  obtain ⟨first, more, rfl⟩ := List.exists_cons_of_ne_nil hne
  rw [read?_name (fun b hb => hbytes b (List.mem_cons_of_mem _ hb)) htail]
  dsimp only
  rw [hsign, if_neg]
  simpa [Cursor.peek?] using hbehind.ne_equals

theorem read?_assignment {name : Text} (hne : name ≠ [])
    (hbytes : ∀ b ∈ name, isAttributeNameByte b = true) (s : Assignment) :
    read? ⟨pos, name ++ (s.text ++ (spaces ++ b :: rest))⟩ =
      some (⟨Text.lower name, some (s.span (pos + name.length))⟩,
        ⟨pos + name.length + s.text.length, spaces ++ b :: rest⟩) := by
  obtain ⟨first, more, rfl⟩ := List.exists_cons_of_ne_nil hne
  refine read?_assigned (fun b hb => hbytes b (List.mem_cons_of_mem _ hb)) s ?_ first pos
  exact WrittenValue.before_of_breaks (hbehind.breaks (fun x hx => (of_isSpace_in_tag x hx).2.2)
    (by decide) rest) s.value

/-- An attribute is read where its name stands. -/
theorem read?_written (a : Written) :
    read? ⟨pos + a.gap.length, a.name ++ (a.assigned ++ (spaces ++ b :: rest))⟩ =
      some (a.read pos, ⟨pos + a.text.length, spaces ++ b :: rest⟩) := by
  obtain ⟨gap, name, assignment, -, -, hne, hbytes⟩ := a
  cases assignment with
  | none =>
    have hread := read?_flag hbehind (pos + gap.length) rest hne hbytes
    simpa [Written.assigned, Written.read, Written.text, Nat.add_assoc] using hread
  | some s =>
    have hread := read?_assignment hbehind (pos + gap.length) rest hne hbytes s
    simpa [Written.assigned, Written.read, Written.text, Nat.add_assoc] using hread

end

end Attribute

/-! ## Reading tags -/

namespace StartTag

open Attribute (Behind Reads)

namespace Closing

theorem behind (closing : Closing) (after : Text) :
    ∃ spaces b rest, closing.text ++ after = spaces ++ b :: rest ∧ Behind spaces b := by
  cases closing with
  | plain gap hgap =>
    exact ⟨gap, greater, after, by simp [text], ⟨hgap, by decide, by decide, fun _ => rfl⟩⟩
  | selfClosing gap hne hgap =>
    exact ⟨gap, slash, greater :: after, by simp [text],
      ⟨hgap, by decide, by decide, fun hnil => absurd hnil hne⟩⟩

theorem reads (closing : Closing) (pos : Nat) (after : Text) :
    Reads ⟨pos, closing.text ++ after⟩ [] closing.isSelfClosing
      ⟨pos + closing.text.length, after⟩ := by
  cases closing with
  | plain gap hgap =>
    have htext : (plain gap hgap).text ++ after = gap ++ greater :: after := by simp [text]
    have hskip : (Cursor.mk pos (gap ++ greater :: after)).skipWhile isSpace =
        ⟨pos + gap.length, greater :: after⟩ :=
      Cursor.skipWhile_run hgap (breaks_cons (by decide))
    have hread : Reads ⟨pos, gap ++ greater :: after⟩ [] false
        ((Cursor.mk pos (gap ++ greater :: after)).skipWhile isSpace |>.advance 1) :=
      .greater (by rw [hskip]; rfl)
    rw [hskip] at hread
    rw [htext, text, List.length_append]
    exact hread
  | selfClosing gap hne hgap =>
    have htext : (selfClosing gap hne hgap).text ++ after = gap ++ slash :: greater :: after := by
      simp [text]
    have hskip : (Cursor.mk pos (gap ++ slash :: greater :: after)).skipWhile isSpace =
        ⟨pos + gap.length, slash :: greater :: after⟩ :=
      Cursor.skipWhile_run hgap (breaks_cons (by decide))
    have hread : Reads ⟨pos, gap ++ slash :: greater :: after⟩ [] true
        ((Cursor.mk pos (gap ++ slash :: greater :: after)).skipWhile isSpace |>.advance 2) :=
      .close (by rw [hskip]; rfl) (by rw [hskip]; rfl)
    rw [hskip] at hread
    rw [htext, text, List.length_append]
    exact hread

end Closing

namespace Written

theorem tail_cons (a : Attribute.Written) (as : List Attribute.Written) (closing : Closing)
    (after : Text) : tail (a :: as) closing ++ after =
      a.gap ++ (a.name ++ (a.assigned ++ (tail as closing ++ after))) := by
  simp [tail, Attribute.Written.text]

theorem behind_tail (attributes : List Attribute.Written) (closing : Closing) (after : Text) :
    ∃ spaces b rest, tail attributes closing ++ after = spaces ++ b :: rest ∧ Behind spaces b := by
  cases attributes with
  | nil => exact closing.behind after
  | cons a as =>
    obtain ⟨first, more, hname, hfirst⟩ := a.exists_name
    obtain ⟨hspace, hequals, -, -⟩ := of_isAttributeNameByte first hfirst
    rw [tail_cons, hname]
    exact ⟨a.gap, first, _, rfl,
      ⟨a.gap_space, hspace, hequals, fun hnil => absurd hnil a.gap_ne_nil⟩⟩

/-- Attributes are read one after the other, and then the end of the tag. -/
theorem reads_tail (attributes : List Attribute.Written) (closing : Closing) (pos : Nat)
    (after : Text) :
    Reads ⟨pos, tail attributes closing ++ after⟩ (Attribute.Written.readEach pos attributes)
      closing.isSelfClosing ⟨pos + (tail attributes closing).length, after⟩ := by
  induction attributes generalizing pos with
  | nil => exact closing.reads pos after
  | cons a as ih =>
    obtain ⟨first, more, hname, hfirst⟩ := a.exists_name
    obtain ⟨hspace, -, hslash, hgreater⟩ := of_isAttributeNameByte first hfirst
    obtain ⟨spaces, b, rest, hrest, hbehind⟩ := behind_tail as closing after
    have hread := Attribute.read?_written hbehind pos rest a
    rw [← hrest] at hread
    have hskip : (Cursor.mk pos (tail (a :: as) closing ++ after)).skipWhile isSpace =
        ⟨pos + a.gap.length, a.name ++ (a.assigned ++ (tail as closing ++ after))⟩ := by
      rw [tail_cons]
      exact Cursor.skipWhile_run a.gap_space (hname ▸ breaks_cons hspace)
    have hlength : pos + (tail (a :: as) closing).length =
        pos + a.text.length + (tail as closing).length := by
      rw [tail, tail, List.flatMap_cons, List.append_assoc, List.length_append, Nat.add_assoc]
    rw [hlength]
    refine .next (b := first) ?_ hgreater hslash (hskip ▸ hread) (ih (pos + a.text.length))
    rw [hskip, hname]
    rfl

/-- A written tag is read where it starts, whatever stands behind it. -/
theorem read?_text (tag : Written) (pos : Nat) (after : Text) :
    Token.read? ⟨pos, tag.text ++ after⟩ =
      some (.start (tag.read pos), ⟨pos + tag.text.length, after⟩) := by
  obtain ⟨hbyte, hbang, hquestion, hslash⟩ := of_isLetter tag.letter tag.isLetter_letter
  have hname : ∀ b ∈ tag.name, isElementNameByte b = true :=
    List.forall_mem_cons.2 ⟨hbyte, tag.more_bytes⟩
  have hreads := Attribute.readAll_of_reads
    (reads_tail tag.attributes tag.closing (pos + 1 + tag.name.length) after)
  have hends : Breaks isElementNameByte (tail tag.attributes tag.closing ++ after) := by
    obtain ⟨spaces, b, rest, hrest, hbehind⟩ := behind_tail tag.attributes tag.closing after
    rw [hrest]
    exact hbehind.breaks (fun x hx => (of_isSpace_in_tag x hx).2.1) (by decide) rest
  have htext : tag.text ++ after =
      less :: (tag.name ++ (tail tag.attributes tag.closing ++ after)) := by
    simp [text]
  have hlength : pos + 1 + tag.name.length + (tail tag.attributes tag.closing).length =
      pos + tag.text.length := by
    rw [text, List.length_cons, List.length_append]
    omega
  generalize tail tag.attributes tag.closing ++ after = rest at hreads hends htext
  have hrun : (Cursor.mk (pos + 1) (tag.name ++ rest)).takeWhile isElementNameByte = tag.name :=
    Cursor.takeWhile_run hname hends
  have hskip : (Cursor.mk (pos + 1) (tag.name ++ rest)).skipWhile isElementNameByte =
      ⟨pos + 1 + tag.name.length, rest⟩ := Cursor.skipWhile_run hname hends
  have hstart : Token.readStart? ⟨pos, less :: (tag.name ++ rest)⟩ =
      some (.start (tag.read pos), ⟨pos + tag.text.length, after⟩) := by
    have hnext : (Cursor.mk pos (less :: (tag.name ++ rest))).advance 1 =
        ⟨pos + 1, tag.name ++ rest⟩ := rfl
    rw [Token.readStart?, hnext, hrun, hskip, hreads, hlength]
    rfl
  rw [htext, ← hstart]
  show Token.read? ⟨pos, less :: tag.letter :: (tag.more ++ rest)⟩ = _
  simp [Token.read?, name, hbang, hquestion, hslash, tag.isLetter_letter]

end Written

end StartTag

/-! ## Values of a written tag -/

/-- A part of a text that stands at offset `base`. -/
theorem Cursor.slice_part (base : Nat) (front part after : Text) :
    (Cursor.mk base (front ++ (part ++ after))).slice
      ⟨base + front.length, base + front.length + part.length⟩ = part := by
  simp only [Cursor.slice, Span.length, Nat.add_sub_cancel_left, List.drop_left, List.take_left]

namespace Attribute

theorem WrittenValue.slice_span (v : WrittenValue) (base : Nat) (front after : Text) :
    (Cursor.mk base (front ++ (v.text ++ after))).slice (v.span (base + front.length)) =
      v.content := by
  cases v with
  | quoted quote content _ _ =>
    have hpart := Cursor.slice_part base (front ++ [quote]) content (quote :: after)
    simpa [text, WrittenValue.content, span, Nat.add_assoc] using hpart
  | bare content _ _ _ => exact Cursor.slice_part base front content after

namespace Written

theorem slice_read (a : Written) (base : Nat) (front after : Text) :
    (a.read (base + front.length)).value.map (Cursor.mk base (front ++ (a.text ++ after))).slice =
      a.value? := by
  obtain ⟨gap, name, assignment, -, -, -, -⟩ := a
  cases assignment with
  | none => rfl
  | some s =>
    have hvalue := s.value.slice_span base (front ++ gap ++ name ++ s.before ++ [equals] ++ s.after)
      after
    simpa [read, value?, text, assigned, Assignment.text, Assignment.span, Nat.add_assoc,
      Nat.add_comm 1] using hvalue

/-- The names and values that are read are those that are written. -/
theorem map_readEach (as : List Written) (base : Nat) (front after : Text) :
    (readEach (base + front.length) as).map (fun a =>
        (a.name, a.value.map (Cursor.mk base (front ++ (as.flatMap (·.text) ++ after))).slice)) =
      as.map fun a => (Text.lower a.name, a.value?) := by
  induction as generalizing front with
  | nil => rfl
  | cons a as ih =>
    have hmore := ih (front ++ a.text)
    rw [List.length_append, ← Nat.add_assoc, List.append_assoc] at hmore
    rw [readEach, List.map_cons, List.map_cons, List.flatMap_cons, List.append_assoc, hmore,
      slice_read]
    rfl

end Written

end Attribute

namespace StartTag

/-- **Reading undoes writing a start tag.**  A tag that stands behind `front` in a document is read
from its `<` to its `>`, with its names in lower case and with spans whose texts are the values as
they are written. -/
theorem read_back (tag : Written) (base : Nat) (front after : Text) :
    let document := Cursor.ofText (front ++ tag.text ++ after) base
    let c := document.advance front.length
    let span : Span := ⟨c.pos, c.pos + tag.text.length⟩
    ∃ attributes,
      Token.read? c = some (.start ⟨Text.lower tag.name, span, attributes,
        tag.closing.isSelfClosing⟩, c.advance tag.text.length) ∧
      document.slice span = tag.text ∧
      attributes.map (fun a => (a.name, a.value.map document.slice)) =
        tag.attributes.map (fun a => (Text.lower a.name, a.value?)) ∧
      Span.InOrder (span.stop - 1) (span.start + 1) (Attribute.values attributes) := by
  intro document c span
  have hdocument : document = ⟨base, front ++ (tag.text ++ after)⟩ := by
    rw [← List.append_assoc]
    rfl
  have hc : c = ⟨base + front.length, tag.text ++ after⟩ := by
    show document.advance front.length = _
    rw [hdocument, Cursor.advance, List.drop_left]
  have hend : c.advance tag.text.length = ⟨base + front.length + tag.text.length, after⟩ := by
    rw [hc, Cursor.advance, List.drop_left]
  have hread : Token.read? c = some (.start (tag.read c.pos), c.advance tag.text.length) := by
    rw [hend, hc]
    exact tag.read?_text _ after
  refine ⟨_, hread, ?_, ?_, (Token.readFrom_of_read hread).values_inOrder _ rfl⟩
  · show document.slice ⟨c.pos, c.pos + tag.text.length⟩ = tag.text
    rw [hdocument, hc]
    exact Cursor.slice_part base front tag.text after
  · have hmap := Attribute.Written.map_readEach tag.attributes base
      (front ++ less :: tag.name) (tag.closing.text ++ after)
    rw [hdocument, hc]
    simpa [Written.read, Written.text, Written.tail, Nat.add_assoc, Nat.add_comm 1] using hmap

example :
    let title : Attribute.Written := ⟨[0x20], Text.ofString "Title",
      some ⟨[], [0x20],
        .quoted singleQuote (Text.ofString "a>[b]") (by decide +kernel) (by decide +kernel),
        by decide +kernel, by decide +kernel⟩,
      by decide +kernel, by decide +kernel, by decide +kernel, by decide +kernel⟩
    let flag : Attribute.Written := ⟨[0x0A, 0x20], Text.ofString "x", none,
      by decide +kernel, by decide +kernel, by decide +kernel, by decide +kernel⟩
    let tag : Written := ⟨0x42, Text.ofString "R", [title, flag],
      .selfClosing [0x20] (by decide +kernel) (by decide +kernel),
      by decide +kernel, by decide +kernel⟩
    tag.text = Text.ofString "<BR Title= 'a>[b]'\n x />" ∧
      (tag.read 3).attributes =
        [⟨Text.ofString "title", some ⟨15, 20⟩⟩, ⟨Text.ofString "x", none⟩] := by
  decide +kernel

end StartTag

end Shortcode
