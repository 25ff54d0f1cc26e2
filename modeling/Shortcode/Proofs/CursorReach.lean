import Shortcode.Arguments.Reader
import Shortcode.Proofs.SpanOrder

/-!
# How far readers go

`c.Reaches d` says that `d` is the cursor `c` moved on within its text.  Every reader gives back a
cursor that its own cursor reaches, so what lies between the two is a part of the text.

    c.Reaches d → c.rest = source.drop c.pos → d.rest = source.drop d.pos
-/

namespace Shortcode

open Byte

namespace Text

/-- What remains after skipping up to `stop` satisfies it, if anything remains. -/
theorem stop_dropUntil (stop : Text → Bool) {t : Text} (h : dropUntil stop t ≠ []) :
    stop (dropUntil stop t) = true := by
  induction t with
  | nil => exact absurd rfl h
  | cons b rest ih =>
    by_cases hb : stop (b :: rest)
    · rw [dropUntil, if_pos hb]
      exact hb
    · rw [dropUntil, if_neg hb] at h ⊢
      exact ih h

end Text

namespace Cursor

/-- The offset after the text at the cursor. -/
def stop (c : Cursor) : Nat := c.pos + c.rest.length

/-- The cursor `d` is `c` moved on within its text. -/
def Reaches (c d : Cursor) : Prop := ∃ n, n ≤ c.rest.length ∧ d = c.advance n

/-- The text at the cursor is all of `source` from there on. -/
def Over (source : Text) (c : Cursor) : Prop :=
  c.pos ≤ source.length ∧ c.rest = source.drop c.pos

/-! ## Reaching -/

theorem Reaches.refl (c : Cursor) : c.Reaches c := ⟨0, Nat.zero_le _, rfl⟩

theorem advance_advance (c : Cursor) (m n : Nat) :
    (c.advance m).advance n = c.advance (m + n) := by
  simp only [advance, List.drop_drop, Nat.add_assoc]

theorem Reaches.trans {c d e : Cursor} (h : c.Reaches d) (h' : d.Reaches e) : c.Reaches e := by
  obtain ⟨m, hm, rfl⟩ := h
  obtain ⟨n, hn, rfl⟩ := h'
  refine ⟨m + n, ?_, advance_advance c m n⟩
  rw [advance_rest, List.length_drop] at hn
  omega

theorem reaches_advance {c : Cursor} {n : Nat} (h : n ≤ c.rest.length) : c.Reaches (c.advance n) :=
  ⟨n, h, rfl⟩

/-- One step from a cursor that is not at the end. -/
theorem reaches_next {c : Cursor} (h : c.rest ≠ []) : c.Reaches (c.advance 1) :=
  reaches_advance (List.length_pos_iff.2 h)

theorem rest_ne_nil {c : Cursor} {b : UInt8} (h : c.peek? = some b) : c.rest ≠ [] := by
  intro e
  rw [peek?, e] at h
  cases h

/-- One step more from a cursor that is not at the end. -/
theorem Reaches.next {c d : Cursor} (h : c.Reaches d) (hend : ¬ d.atEnd = true) :
    c.Reaches (d.advance 1) := by
  refine h.trans (reaches_next ?_)
  simpa [atEnd] using hend

theorem reaches_of_append {c : Cursor} {a b : Text} (h : a ++ b = c.rest) :
    c.Reaches ⟨c.pos + a.length, b⟩ := by
  refine ⟨a.length, ?_, ?_⟩
  · rw [← h, List.length_append]
    omega
  · rw [advance, ← h, List.drop_left]

theorem reaches_skipWhile (p : UInt8 → Bool) (c : Cursor) : c.Reaches (c.skipWhile p) :=
  reaches_of_append List.takeWhile_append_dropWhile

theorem reaches_skipUntil (stop : Text → Bool) (c : Cursor) : c.Reaches (c.skipUntil stop) :=
  reaches_of_append (Text.takeUntil_append_dropUntil stop c.rest)

theorem Reaches.pos_le {c d : Cursor} (h : c.Reaches d) : c.pos ≤ d.pos := by
  obtain ⟨n, -, rfl⟩ := h
  exact Nat.le_add_right _ _

theorem Reaches.stop_eq {c d : Cursor} (h : c.Reaches d) : d.stop = c.stop := by
  obtain ⟨n, hn, rfl⟩ := h
  show c.pos + n + (c.rest.drop n).length = c.pos + c.rest.length
  rw [List.length_drop]
  omega

/-- Two cursors that one cursor reaches are equal if their offsets are. -/
theorem Reaches.eq_of_pos {c d e : Cursor} (hd : c.Reaches d) (he : c.Reaches e)
    (hpos : d.pos = e.pos) : d = e := by
  obtain ⟨m, -, rfl⟩ := hd
  obtain ⟨n, -, rfl⟩ := he
  rw [Nat.add_left_cancel hpos]

theorem pos_le_stop (c : Cursor) : c.pos ≤ c.stop := Nat.le_add_right _ _

/-- A shorter rest means that the cursor has moved. -/
theorem Reaches.pos_lt {c d : Cursor} (h : c.Reaches d) (hl : d.rest.length < c.rest.length) :
    c.pos < d.pos := by
  have := h.stop_eq
  unfold stop at this
  omega

theorem Reaches.over {source : Text} {c d : Cursor} (h : c.Reaches d) (hc : c.Over source) :
    d.Over source := by
  obtain ⟨n, hn, rfl⟩ := h
  obtain ⟨hpos, hrest⟩ := hc
  rw [hrest, List.length_drop] at hn
  constructor
  · show c.pos + n ≤ source.length
    omega
  · show c.rest.drop n = source.drop (c.pos + n)
    rw [hrest, List.drop_drop]

theorem over_ofText (source : Text) : (ofText source 0).Over source := ⟨Nat.zero_le _, rfl⟩

theorem Over.stop_eq {source : Text} {c : Cursor} (h : c.Over source) : c.stop = source.length := by
  rw [stop, h.2, List.length_drop]
  have := h.1
  omega

/-- A later part of the text reads the same from the cursor and from the source. -/
theorem Over.slice_eq {source : Text} {c : Cursor} (h : c.Over source) {s : Span}
    (hs : c.pos ≤ s.start) : c.slice s = s.slice source := by
  rw [slice, Span.slice, h.2, List.drop_drop]
  congr 2
  omega

/-- A run that is known to end is read as such. -/
theorem takeWhile_of_append {p : UInt8 → Bool} {c : Cursor} {run after : Text}
    (hrest : c.rest = run ++ after) (hrun : ∀ b ∈ run, p b = true)
    (hafter : ∀ b, after.head? = some b → p b = false) :
    c.takeWhile p = run ∧ (c.skipWhile p).rest = after := by
  have hstop : after.takeWhile p = [] ∧ after.dropWhile p = after := by
    cases after with
    | nil => exact ⟨rfl, rfl⟩
    | cons b after => simp [hafter b rfl]
  constructor
  · rw [takeWhile, hrest, List.takeWhile_append_of_pos hrun, hstop.1, List.append_nil]
  · show c.rest.dropWhile p = after
    rw [hrest, List.dropWhile_append_of_pos hrun, hstop.2]

theorem length_le_of_startsWith {pattern : Text} {c : Cursor} (h : c.startsWith pattern = true) :
    pattern.length ≤ c.rest.length :=
  (List.isPrefixOf_iff_prefix.1 h).length_le

end Cursor

/-! ## Arguments -/

namespace Arguments

theorem reaches_of_value {stop : Terminator} {c d : Cursor} {v : Text}
    (h : value stop c = .ok (v, d)) : c.Reaches d := by
  unfold value at h
  split at h
  · rename_i b hb
    split at h
    · unfold quotedValue at h
      simp only at h
      split at h
      · cases h
      · rename_i hend
        cases h
        have hfirst := Cursor.reaches_next (Cursor.rest_ne_nil hb)
        exact (hfirst.trans (Cursor.reaches_skipWhile _ _)).next hend
    · cases h
      exact Cursor.reaches_skipUntil _ _
  · cases h
    exact .refl c

theorem reaches_of_entry {stop : Terminator} {c d : Cursor} {e : Text × Text}
    (h : entry stop c = .ok (e, d)) : c.Reaches d := by
  unfold entry at h
  split at h
  · cases h
  · simp only at h
    split at h
    · cases h
    · split at h
      · rename_i hsign
        cases hv : value stop
            ((((c.skipWhile isKeyByte).skipWhile isSpace).advance 1).skipWhile isSpace) with
        | error e => rw [hv] at h; cases h
        | ok p =>
          rw [hv] at h
          cases h
          exact (Cursor.reaches_skipWhile _ _).trans <| (Cursor.reaches_skipWhile _ _).trans <|
            (Cursor.reaches_next (Cursor.rest_ne_nil hsign)).trans <|
            (Cursor.reaches_skipWhile _ _).trans <| reaches_of_value hv
      · cases h
        exact Cursor.reaches_skipWhile _ _

/-- A list that is read ends where its terminator stands. -/
theorem reaches_of_readInto {stop : Terminator} {args args' : Arguments} {c d : Cursor}
    (h : readInto stop args c = .ok (args', d)) : c.Reaches d ∧ stop.reached d.rest = true := by
  induction hn : c.rest.length using Nat.strongRecOn generalizing c args with
  | _ n ih =>
    subst hn
    rw [readInto] at h
    simp only at h
    split at h
    · rename_i hstop
      cases h
      exact ⟨Cursor.reaches_skipWhile _ _, hstop⟩
    · split at h
      · cases h
      · rename_i after he
        have hlt : after.rest.length < c.rest.length :=
          Nat.lt_of_lt_of_le (length_entry_lt he) (Cursor.length_skipWhile_le isSeparator c)
        obtain ⟨h1, h2⟩ := ih _ hlt h rfl
        exact ⟨(Cursor.reaches_skipWhile _ _).trans ((reaches_of_entry he).trans h1), h2⟩

end Arguments

end Shortcode
