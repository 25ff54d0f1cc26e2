import Shortcode.Proofs.ValidReading
import Shortcode.Toml.Writer

/-!
# Strings and keys that are written are read

Each byte of a string in double quotes is written as it is or as an escape (`Escaped`), and both are
read as that byte.  A string over several lines may end in quotes; they are told from the quotes
that close it because at most two stand unescaped in a row.  So a string is read back in whichever
notation it was written, and so is a key.

    string? (writeString t ++ rest) = some (t, rest)                       (string?_writeString)
    keyPart? (writeKey t ++ rest) = some (t, rest)                            (keyPart?_writeKey)
-/

namespace Shortcode.Toml

open Byte

/-! ## Bytes between double quotes -/

/-- How a byte may be written between double quotes, where `quotes` double quotes stand in front of
it. -/
inductive Escaped (long : Bool) (quotes : Nat) (b : UInt8) : Text → Prop
  | quote : long = true → quotes < 2 → b = doubleQuote → Escaped long quotes b [doubleQuote]
  | newline : long = true → b = 0x0A → Escaped long quotes b [0x0A]
  | plain : isPlain b = true → b ≠ doubleQuote → b ≠ backslash → Escaped long quotes b [b]
  | short {x : UInt8} : shortEscapes.lookup x = some b → Escaped long quotes b [backslash, x]
  | codePoint : isAscii b = true → Escaped long quotes b ([backslash, 0x75] ++ fourDigits b)

theorem isAscii_of_control : ∀ b : UInt8, (b < 0x20 || b = 0x7F) = true → isAscii b = true := by
  grind [isAscii]

theorem isPlain_of_not_control :
    ∀ b : UInt8, (b < 0x20 || b = 0x7F) = false → isPlain b = true := by
  grind [isPlain]

theorem escaped_escapeByte (long : Bool) (quotes : Nat) (b : UInt8) :
    Escaped long quotes b (escapeByte long quotes b) := by
  have hshort : ∀ c x, b = c → shortEscapes.lookup x = some c →
      Escaped long quotes b [backslash, x] := fun c x hb hx => .short (hb ▸ hx)
  unfold escapeByte
  by_cases hquote : b = doubleQuote
  · rw [if_pos hquote]
    cases long with
    | false => exact hshort doubleQuote doubleQuote hquote rfl
    | true =>
      by_cases hquotes : quotes < 2
      · rw [if_pos rfl, if_pos hquotes, hquote]
        exact .quote rfl hquotes rfl
      · rw [if_pos rfl, if_neg hquotes]
        exact hshort doubleQuote doubleQuote hquote rfl
  rw [if_neg hquote]
  by_cases hback : b = 0x08
  · rw [if_pos hback]
    exact hshort 0x08 0x62 hback rfl
  rw [if_neg hback]
  by_cases htab : b = 0x09
  · rw [if_pos htab]
    exact hshort 0x09 0x74 htab rfl
  rw [if_neg htab]
  by_cases hline : b = 0x0A
  · rw [if_pos hline]
    cases long with
    | false => exact hshort 0x0A 0x6E hline rfl
    | true =>
      rw [if_pos rfl, hline]
      exact .newline rfl rfl
  rw [if_neg hline]
  by_cases hform : b = 0x0C
  · rw [if_pos hform]
    exact hshort 0x0C 0x66 hform rfl
  rw [if_neg hform]
  by_cases hreturn : b = 0x0D
  · rw [if_pos hreturn]
    exact hshort 0x0D 0x72 hreturn rfl
  rw [if_neg hreturn]
  by_cases hslash : b = backslash
  · rw [if_pos hslash]
    exact hshort backslash backslash hslash rfl
  rw [if_neg hslash]
  by_cases hcontrol : (b < 0x20 || b = 0x7F) = true
  · rw [if_pos hcontrol, show Text.ofString "\\u" = [backslash, 0x75] by decide]
    exact .codePoint (isAscii_of_control b hcontrol)
  · rw [if_neg hcontrol]
    exact .plain (isPlain_of_not_control b (Bool.eq_false_iff.2 hcontrol)) hquote hslash

/-! ## Escapes -/

theorem escape?_short {x b : UInt8} (h : shortEscapes.lookup x = some b) (rest : Text) :
    escape? (x :: rest) = some ([b], rest) := by
  simp only [escape?, h]

theorem fourDigits_of_lt : ∀ n, n < 0x80 → (fourDigits (UInt8.ofNat n)).length = 4 ∧
    CharacterReference.number? 16 (fourDigits (UInt8.ofNat n)) = some n := by
  decide +kernel

theorem fourDigits_of_isAscii {b : UInt8} (hb : isAscii b = true) : (fourDigits b).length = 4 ∧
    CharacterReference.number? 16 (fourDigits b) = some b.toNat ∧ b.toNat.isValidChar := by
  have hlt : b.toNat < 0x80 := of_decide_eq_true hb
  have h := fourDigits_of_lt b.toNat hlt
  rw [UInt8.ofNat_toNat] at h
  exact ⟨h.1, h.2, .inl (Nat.lt_trans hlt (by decide))⟩

theorem escape?_mark (rest : Text) : escape? (0x75 :: rest) = codePoint? 4 rest := rfl

theorem escape?_codePoint {b : UInt8} (hb : isAscii b = true) (rest : Text) :
    escape? (0x75 :: (fourDigits b ++ rest)) = some ([b], rest) := by
  obtain ⟨hlength, hnumber, hvalid⟩ := fourDigits_of_isAscii hb
  have htake : (fourDigits b ++ rest).take 4 = fourDigits b := List.take_left' hlength
  have hdrop : (fourDigits b ++ rest).drop 4 = rest := List.drop_left' hlength
  rw [escape?_mark, codePoint?, htake, hdrop, hnumber, if_pos hlength]
  simp only [hvalid, if_true, Text.encode_of_isAscii b hb]

/-! ## Strings on one line -/

section

variable {b : UInt8} {rest s after : Text}

theorem basic?_quote (rest : Text) : basic? (doubleQuote :: rest) = some ([], rest) := by
  rw [basic?, if_pos rfl]

theorem basic?_escape (h : escape? rest = some (s, after)) :
    basic? (backslash :: rest) = (basic? after).map fun p => (s ++ p.1, p.2) := by
  rw [basic?, if_neg (by decide), if_pos rfl]
  split
  · rename_i hnone
    cases hnone.symm.trans h
  · rename_i hsome
    cases hsome.symm.trans h
    rfl

theorem basic?_plain (hb : isPlain b = true) (hquote : b ≠ doubleQuote) (hslash : b ≠ backslash) :
    basic? (b :: rest) = (basic? rest).map fun p => (b :: p.1, p.2) := by
  rw [basic?, if_neg hquote, if_neg hslash, if_pos hb]

end

/-- A string between double quotes is read as it was. -/
theorem basic?_escapeFrom (quotes : Nat) (t rest : Text) :
    basic? (escapeFrom false quotes t ++ doubleQuote :: rest) = some (t, rest) := by
  induction t generalizing quotes with
  | nil => exact basic?_quote rest
  | cons b t ih =>
    rw [escapeFrom]
    have hescaped := escaped_escapeByte false quotes b
    generalize escapeByte false quotes b = written at hescaped ⊢
    generalize (if written = [doubleQuote] then quotes + 1 else 0) = quotes'
    rw [List.append_assoc]
    cases hescaped with
    | quote hlong _ _ => cases hlong
    | newline hlong _ => cases hlong
    | plain hb hquote hslash =>
      rw [List.singleton_append, basic?_plain hb hquote hslash, ih]
      rfl
    | short hx =>
      rw [List.cons_append, List.singleton_append, basic?_escape (escape?_short hx _), ih]
      rfl
    | codePoint hb =>
      rw [List.append_assoc, List.cons_append, List.singleton_append,
        basic?_escape (escape?_codePoint hb _), ih]
      rfl

theorem literal?_append {t : Text} (ht : ∀ b ∈ t, isPlain b = true ∧ b ≠ singleQuote)
    (rest : Text) : literal? (t ++ singleQuote :: rest) = some (t, rest) := by
  have hrun : ∀ b ∈ t, (isPlain b && b != singleQuote) = true := fun b hb => by
    simp [(ht b hb).1, (ht b hb).2]
  rw [literal?, List.takeWhile_append_of_pos hrun, List.dropWhile_append_of_pos hrun]
  simp [isPlain]

/-! ## Strings over several lines -/

section

variable {quote b : UInt8} {rest s after : Text} {n : Nat}

theorem takeWhile_run (quote : UInt8) (hn : n ≤ 5) (hrest : rest.head? ≠ some quote) :
    ((List.replicate n quote ++ rest).take 5).takeWhile (· == quote) = List.replicate n quote := by
  have hafter : (rest.take (5 - n)).takeWhile (· == quote) = [] := by
    cases rest with
    | nil => simp
    | cons b rest =>
      have hb : b ≠ quote := fun h => hrest (by rw [h]; rfl)
      cases 5 - n with
      | zero => rfl
      | succ k => simp [hb]
  rw [List.take_append, List.length_replicate, List.take_of_length_le (by simpa using hn),
    List.takeWhile_append_of_pos (by simp), hafter, List.append_nil]

/-- Of three to five quotes in a row the last three close the string. -/
theorem closing?_run (hn : n ≤ 2) (hrest : rest.head? ≠ some quote) :
    closing? quote (List.replicate (n + 3) quote ++ rest) =
      some (List.replicate n quote, rest) := by
  have hrun := takeWhile_run quote (n := n + 3) (by omega) hrest
  have hdrop : ((List.replicate (n + 3) quote) ++ rest).drop
      (List.replicate (n + 3) quote).length = rest := List.drop_left
  rw [closing?, hrun, if_neg (by simp), List.drop_replicate, Nat.add_sub_cancel, hdrop]

/-- Two quotes in a row close nothing. -/
theorem closing?_short (hn : n ≤ 2) (hrest : rest.head? ≠ some quote) :
    closing? quote (List.replicate n quote ++ rest) = none := by
  rw [closing?, takeWhile_run quote (by omega) hrest, List.length_replicate, if_pos (by omega)]

theorem longBasic?_closing {closed : Text × Text} (h : closing? doubleQuote rest = some closed) :
    longBasic? rest = some closed := by
  rw [longBasic?.eq_def, h]

theorem longLiteral?_closing {closed : Text × Text} (h : closing? singleQuote rest = some closed) :
    longLiteral? rest = some closed := by
  rw [longLiteral?.eq_def, h]

theorem longBasic?_escape (hquote : closing? doubleQuote (backslash :: rest) = none)
    (hjoin : joinedLine? rest = none) (h : escape? rest = some (s, after)) :
    longBasic? (backslash :: rest) = (longBasic? after).map fun p => (s ++ p.1, p.2) := by
  rw [longBasic?, hquote]
  simp only [if_true]
  split
  · rename_i hsome
    cases hsome.symm.trans hjoin
  · split
    · rename_i hnone
      cases hnone.symm.trans h
    · rename_i hsome
      cases hsome.symm.trans h
      rfl

theorem longBasic?_plain (hquote : closing? doubleQuote (b :: rest) = none)
    (hslash : b ≠ backslash) (hb : (isPlain b || isLineEnd b rest) = true) :
    longBasic? (b :: rest) = (longBasic? rest).map fun p => (b :: p.1, p.2) := by
  rw [longBasic?, hquote]
  simp only [if_neg hslash, if_pos hb]

theorem longLiteral?_plain (hquote : closing? singleQuote (b :: rest) = none)
    (hb : (isPlain b || isLineEnd b rest) = true) :
    longLiteral? (b :: rest) = (longLiteral? rest).map fun p => (b :: p.1, p.2) := by
  rw [longLiteral?, hquote]
  simp only [if_pos hb]

/-- Up to two quotes that are followed by something else belong to the string. -/
theorem longBasic?_run (hn : n ≤ 2) (hrest : rest.head? ≠ some doubleQuote) :
    longBasic? (List.replicate n doubleQuote ++ rest) =
      (longBasic? rest).map fun p => (List.replicate n doubleQuote ++ p.1, p.2) := by
  induction n with
  | zero => simp
  | succ n ih =>
    have hshort := closing?_short hn hrest
    rw [List.replicate_succ, List.cons_append] at hshort ⊢
    rw [longBasic?_plain hshort (by decide) rfl, ih (by omega), Option.map_map]
    rfl

theorem longLiteral?_run (hn : n ≤ 2) (hrest : rest.head? ≠ some singleQuote) :
    longLiteral? (List.replicate n singleQuote ++ rest) =
      (longLiteral? rest).map fun p => (List.replicate n singleQuote ++ p.1, p.2) := by
  induction n with
  | zero => simp
  | succ n ih =>
    have hshort := closing?_short hn hrest
    rw [List.replicate_succ, List.cons_append] at hshort ⊢
    rw [longLiteral?_plain hshort rfl, ih (by omega), Option.map_map]
    rfl

/-- No quote stands in front of another byte. -/
theorem closing?_other (hb : b ≠ quote) : closing? quote (b :: rest) = none :=
  closing?_short (n := 0) (Nat.zero_le _) (by simpa using hb)

/-- What may follow a backslash joins no lines. -/
theorem joinedLine?_eq_none (hspace : isWhitespace b = false) (hline : b ≠ 0x0A)
    (hreturn : b ≠ 0x0D) : joinedLine? (b :: rest) = none := by
  rw [joinedLine?, List.dropWhile_cons_of_neg (by simp [hspace]), newline?, if_neg hline,
    if_neg (by simp [hreturn])]
  rfl

theorem ne_of_lookup_shortEscapes {x : UInt8} (h : shortEscapes.lookup x = some b) :
    isWhitespace x = false ∧ x ≠ 0x0A ∧ x ≠ 0x0D := by
  have htable : ∀ x : UInt8, (shortEscapes.lookup x).isSome = true →
      isWhitespace x = false ∧ x ≠ 0x0A ∧ x ≠ 0x0D :=
    forall_of_table (by decide +kernel)
  exact htable x (by rw [h]; rfl)

end

/-- A string between three double quotes is read as it was.  The quotes in front of the text are
those that have been read last. -/
theorem longBasic?_escapeFrom {quotes : Nat} (hquotes : quotes ≤ 2) (t : Text) {rest : Text}
    (hrest : rest.head? ≠ some doubleQuote) :
    longBasic? (List.replicate quotes doubleQuote ++ (escapeFrom true quotes t ++
        (List.replicate 3 doubleQuote ++ rest))) =
      some (List.replicate quotes doubleQuote ++ t, rest) := by
  induction t generalizing quotes with
  | nil =>
    have hclosing := closing?_run hquotes hrest
    rw [List.replicate_add, List.append_assoc] at hclosing
    rw [escapeFrom, List.nil_append, List.append_nil, longBasic?_closing hclosing]
  | cons b t ih =>
    -- an escape or a byte that is no quote ends the run of quotes
    have hrun : ∀ {x : UInt8} {w : Text}, x ≠ doubleQuote →
        longBasic? (x :: w) = some (b :: t, rest) →
        longBasic? (List.replicate quotes doubleQuote ++ x :: w) =
          some (List.replicate quotes doubleQuote ++ b :: t, rest) := by
      intro x w hx h
      rw [longBasic?_run hquotes (by simpa using hx), h]
      rfl
    have hnext := ih (Nat.zero_le 2)
    rw [List.replicate_zero, List.nil_append, List.nil_append] at hnext
    have hescaped := escaped_escapeByte true quotes b
    rw [escapeFrom]
    generalize escapeByte true quotes b = written at hescaped ⊢
    rw [List.append_assoc]
    cases hescaped with
    | quote _ hlt hb =>
      have hmore := ih (Nat.succ_le_of_lt hlt)
      rw [List.replicate_succ', List.append_assoc, List.append_assoc] at hmore
      rw [if_pos rfl, hb]
      exact hmore
    | newline _ hb =>
      rw [if_neg (by decide), List.singleton_append]
      refine hrun (by decide) ?_
      rw [longBasic?_plain (closing?_other (by decide)) (by decide) rfl, hnext, hb]
      rfl
    | plain hb hquote hslash =>
      rw [if_neg (by simpa using hquote), List.singleton_append]
      refine hrun hquote ?_
      rw [longBasic?_plain (closing?_other hquote) hslash (by rw [hb]; rfl), hnext]
      rfl
    | short hx =>
      obtain ⟨hspace, hline, hreturn⟩ := ne_of_lookup_shortEscapes hx
      rw [if_neg (by simp), List.cons_append, List.singleton_append]
      refine hrun (by decide) ?_
      rw [longBasic?_escape (closing?_other (by decide)) (joinedLine?_eq_none hspace hline hreturn)
        (escape?_short hx _), hnext]
      rfl
    | codePoint hb =>
      rw [if_neg (by simp), List.append_assoc, List.cons_append, List.singleton_append]
      refine hrun (by decide) ?_
      rw [longBasic?_escape (closing?_other (by decide))
        (joinedLine?_eq_none (by decide) (by decide) (by decide)) (escape?_codePoint hb _), hnext]
      rfl

/-! ## Runs of quotes -/

/-- At most `n` copies of `b` stand in a row, with `current` of them in front of the text. -/
def RunsUpTo (b : UInt8) (n : Nat) : Nat → Text → Prop
  | current, [] => current ≤ n
  | current, c :: rest =>
    if c = b then RunsUpTo b n (current + 1) rest else current ≤ n ∧ RunsUpTo b n 0 rest

section

variable {b : UInt8} {n current : Nat} {t : Text}

theorem RunsUpTo.current_le (h : RunsUpTo b n current t) : current ≤ n := by
  induction t generalizing current with
  | nil => exact h
  | cons c rest ih =>
    rw [RunsUpTo] at h
    split at h
    · exact Nat.le_of_succ_le (ih h)
    · exact h.1

theorem RunsUpTo.notMem (h : RunsUpTo b 0 current t) : b ∉ t := by
  induction t generalizing current with
  | nil => exact List.not_mem_nil
  | cons c rest ih =>
    rw [RunsUpTo] at h
    split at h
    · exact absurd h.current_le (Nat.not_succ_le_zero _)
    · rename_i hc
      intro hmem
      rcases List.mem_cons.1 hmem with rfl | hmem
      · exact hc rfl
      · exact ih h.2 hmem

theorem runsUpTo_of_longestRun (h : longestRun b t ≤ n) : RunsUpTo b n 0 t := by
  -- the longest run so far is at least as long as the current one
  have hfold : ∀ t longest current, current ≤ longest →
      (t.foldl (fun (p : Nat × Nat) c => if c == b then (max p.1 (p.2 + 1), p.2 + 1) else (p.1, 0))
        (longest, current)).1 ≤ n → longest ≤ n ∧ RunsUpTo b n current t := by
    intro t
    induction t with
    | nil =>
      intro longest current hle hlongest
      exact ⟨hlongest, Nat.le_trans hle hlongest⟩
    | cons c rest ih =>
      intro longest current hle hlongest
      rw [List.foldl_cons] at hlongest
      by_cases hc : c = b
      · simp only [hc, beq_self_eq_true, if_true] at hlongest
        obtain ⟨h1, h2⟩ := ih _ _ (Nat.le_max_right _ _) hlongest
        exact ⟨Nat.le_trans (Nat.le_max_left _ _) h1, by rwa [RunsUpTo, if_pos hc]⟩
      · simp only [beq_false_of_ne hc, Bool.false_eq_true, if_false] at hlongest
        obtain ⟨h1, h2⟩ := ih _ _ (Nat.zero_le _) hlongest
        exact ⟨h1, by rw [RunsUpTo, if_neg hc]; exact ⟨Nat.le_trans hle h1, h2⟩⟩
  exact (hfold t 0 0 (Nat.le_refl 0) h).2

end

/-- A string between three single quotes is read as it was. -/
theorem longLiteral?_append {quotes : Nat} {t rest : Text} (hruns : RunsUpTo singleQuote 2 quotes t)
    (ht : ∀ b ∈ t, isPlain b = true ∨ b = 0x0A) (hrest : rest.head? ≠ some singleQuote) :
    longLiteral? (List.replicate quotes singleQuote ++ (t ++
        (List.replicate 3 singleQuote ++ rest))) =
      some (List.replicate quotes singleQuote ++ t, rest) := by
  induction t generalizing quotes with
  | nil =>
    have hclosing := closing?_run hruns hrest
    rw [List.replicate_add, List.append_assoc] at hclosing
    rw [List.nil_append, List.append_nil, longLiteral?_closing hclosing]
  | cons b t ih =>
    obtain ⟨hb, ht⟩ := List.forall_mem_cons.1 ht
    have hle := hruns.current_le
    rw [RunsUpTo] at hruns
    split at hruns
    · rename_i hquote
      have hmore := ih hruns ht
      rw [List.replicate_succ', List.append_assoc, List.append_assoc] at hmore
      rw [hquote]
      exact hmore
    · rename_i hquote
      have hnext := ih hruns.2 ht
      rw [List.replicate_zero, List.nil_append, List.nil_append] at hnext
      have hplain : ∀ w, (isPlain b || isLineEnd b w) = true := by
        intro w
        rcases hb with hb | hb
        · rw [hb]
          rfl
        · rw [hb]
          rfl
      rw [List.cons_append, longLiteral?_run hle (by simpa using hquote),
        longLiteral?_plain (closing?_other hquote) (hplain _), hnext]
      rfl

/-! ## Notations -/

section

variable {t rest : Text}

theorem isPlain_of_not_isControl : ∀ b, isControl b = false → isPlain b = true ∨ b = 0x0A := by
  grind [isControl, isPlain]

theorem plain_of_holdsControl (h : holdsControl t = false) :
    ∀ b ∈ t, isPlain b = true ∨ b = 0x0A := by
  intro b hb
  exact isPlain_of_not_isControl b (Bool.eq_false_iff.2 (List.any_eq_false.1 h b hb))

/-- What holds of a string that is written without escapes. -/
theorem Quoting.ofText_cases (t : Text) :
    Quoting.ofText t = .basic ∨ Quoting.ofText t = .longBasic ∨
      Quoting.ofText t = .literal ∧ holdsControl t = false ∧ holdsNewline t = false ∧
        longestRun singleQuote t = 0 ∨
      Quoting.ofText t = .longLiteral ∧ holdsControl t = false ∧ longestRun singleQuote t ≤ 2 := by
  unfold Quoting.ofText
  dsimp only
  split
  · exact .inl rfl
  split
  · rename_i h
    simp only [Bool.and_eq_true, Bool.not_eq_true', decide_eq_true_eq] at h
    exact .inr (.inr (.inl ⟨rfl, h.1.1, h.2, h.1.2⟩))
  split
  · exact .inr (.inl rfl)
  split
  · rename_i h
    simp only [Bool.and_eq_true, Bool.not_eq_true', decide_eq_true_eq] at h
    exact .inr (.inr (.inr ⟨rfl, h⟩))
  split
  · exact .inr (.inl rfl)
  · exact .inl rfl

theorem ne_newline_of_holdsNewline (h : holdsNewline t = false) : ∀ b ∈ t, b ≠ 0x0A := by
  rintro b hb rfl
  rw [holdsNewline, List.contains_iff_mem.2 hb] at h
  cases h

theorem ne_of_longestRun {quote : UInt8} (h : longestRun quote t = 0) : ∀ b ∈ t, b ≠ quote := by
  rintro b hb rfl
  exact (runsUpTo_of_longestRun (Nat.le_of_eq h)).notMem hb

/-- A string on one line that is written without escapes. -/
theorem plain_of_holds (hcontrol : holdsControl t = false) (hline : holdsNewline t = false)
    (hquotes : longestRun singleQuote t = 0) : ∀ b ∈ t, isPlain b = true ∧ b ≠ singleQuote :=
  fun b hb => ⟨(plain_of_holdsControl hcontrol b hb).resolve_right
    (ne_newline_of_holdsNewline hline b hb), ne_of_longestRun hquotes b hb⟩

/-- A string that starts with a line end or with none is told apart by the line end in front. -/
theorem skipNewline_lead {body : Text}
    (h : holdsNewline t = false → ∀ b ∈ body.head?, b ≠ 0x0A ∧ b ≠ 0x0D) :
    skipNewline ((if holdsNewline t then [0x0A] else []) ++ body) = body := by
  cases hline : holdsNewline t with
  | true => rfl
  | false =>
    rw [if_neg Bool.false_ne_true, List.nil_append]
    cases body with
    | nil => rfl
    | cons b body =>
      obtain ⟨hb, hb'⟩ := h hline b rfl
      simp [skipNewline, newline?, hb, hb']

/-- What stands behind the first quotes is no line end, unless the string starts with one. -/
theorem head?_escapeFrom (rest : Text) (hline : holdsNewline t = false) :
    ∀ b ∈ (escapeFrom true 0 t ++ (List.replicate 3 doubleQuote ++ rest)).head?,
      b ≠ 0x0A ∧ b ≠ 0x0D := by
  cases t with
  | nil =>
    rintro b ⟨⟩
    decide
  | cons c t =>
    have hc := ne_newline_of_holdsNewline hline c List.mem_cons_self
    have hescaped := escaped_escapeByte true 0 c
    rw [escapeFrom]
    generalize escapeByte true 0 c = written at hescaped ⊢
    cases hescaped with
    | newline _ h => exact absurd h hc
    | plain h _ _ =>
      rintro b ⟨⟩
      exact ⟨hc, by rintro rfl; cases h⟩
    | quote _ _ _ =>
      rintro b ⟨⟩
      decide
    | short _ =>
      rintro b ⟨⟩
      decide
    | codePoint _ =>
      rintro b ⟨⟩
      decide

theorem head?_append (rest : Text) (ht : ∀ b ∈ t, isPlain b = true ∧ b ≠ 0x0A) :
    ∀ b ∈ (t ++ (List.replicate 3 singleQuote ++ rest)).head?, b ≠ 0x0A ∧ b ≠ 0x0D := by
  cases t with
  | nil =>
    rintro b ⟨⟩
    decide
  | cons c t =>
    obtain ⟨hplain, hc⟩ := ht c List.mem_cons_self
    rintro b ⟨⟩
    exact ⟨hc, by rintro rfl; cases hplain⟩

/-- A string on one line starts with one double quote only, or is empty. -/
theorem not_longBasic (hrest : rest.head? ≠ some doubleQuote) :
    [doubleQuote, doubleQuote, doubleQuote].isPrefixOf
      (doubleQuote :: (escapeFrom false 0 t ++ doubleQuote :: rest)) = false := by
  refine Bool.eq_false_iff.2 fun h => ?_
  have hprefix := (List.cons_prefix_cons.1 (List.isPrefixOf_iff_prefix.1 h)).2
  cases t with
  | nil =>
    obtain ⟨w, hw⟩ := (List.cons_prefix_cons.1 hprefix).2
    exact hrest (List.head?_eq_some_iff.2 ⟨w, hw.symm⟩)
  | cons c t =>
    have hescaped := escaped_escapeByte false 0 c
    rw [escapeFrom] at hprefix
    generalize escapeByte false 0 c = written at hescaped hprefix
    cases hescaped with
    | quote hlong _ _ => cases hlong
    | newline hlong _ => cases hlong
    | plain _ hquote _ => exact hquote (List.cons_prefix_cons.1 hprefix).1.symm
    | short _ => cases (List.cons_prefix_cons.1 hprefix).1
    | codePoint _ => cases (List.cons_prefix_cons.1 hprefix).1

/-- A string without single quotes starts with one of them only, or is empty. -/
theorem not_longLiteral (ht : ∀ b ∈ t, b ≠ singleQuote) (hrest : rest.head? ≠ some singleQuote) :
    [singleQuote, singleQuote, singleQuote].isPrefixOf
      (singleQuote :: (t ++ singleQuote :: rest)) = false := by
  refine Bool.eq_false_iff.2 fun h => ?_
  have hprefix := (List.cons_prefix_cons.1 (List.isPrefixOf_iff_prefix.1 h)).2
  cases t with
  | nil =>
    obtain ⟨w, hw⟩ := (List.cons_prefix_cons.1 hprefix).2
    exact hrest (List.head?_eq_some_iff.2 ⟨w, hw.symm⟩)
  | cons c t => exact ht c List.mem_cons_self (List.cons_prefix_cons.1 hprefix).1.symm

/-! ### Telling the notations apart -/

theorem string?_basic {w : Text}
    (h : [doubleQuote, doubleQuote, doubleQuote].isPrefixOf (doubleQuote :: w) = false) :
    string? (doubleQuote :: w) = basic? w := by
  rw [string?, h]
  rfl

theorem string?_literal {w : Text}
    (h : [singleQuote, singleQuote, singleQuote].isPrefixOf (singleQuote :: w) = false) :
    string? (singleQuote :: w) = literal? w := by
  rw [string?, h]
  rfl

theorem string?_longBasic (w : Text) :
    string? (List.replicate 3 doubleQuote ++ w) = longBasic? (skipNewline w) := rfl

theorem string?_longLiteral (w : Text) :
    string? (List.replicate 3 singleQuote ++ w) = longLiteral? (skipNewline w) := rfl

end

/-- A string is read as it was written, in whichever notation. -/
theorem string?_writeString (t : Text) {rest : Text} (hrest : ∀ b ∈ rest.head?, isQuote b = false) :
    string? (writeString t ++ rest) = some (t, rest) := by
  have hdouble : rest.head? ≠ some doubleQuote := fun h => by cases hrest _ h
  have hsingle : rest.head? ≠ some singleQuote := fun h => by cases hrest _ h
  unfold writeString
  dsimp only
  rcases Quoting.ofText_cases t with h | h | ⟨h, hcontrol, hline, hquotes⟩ | ⟨h, hcontrol, hquotes⟩
  · rw [h]
    simp only [List.append_assoc, List.singleton_append]
    rw [List.cons_append, string?_basic (not_longBasic hdouble)]
    exact basic?_escapeFrom 0 t rest
  · rw [h]
    have hread := longBasic?_escapeFrom (Nat.zero_le 2) t hdouble
    simp only [List.append_assoc]
    refine (string?_longBasic _).trans ?_
    have hskip := skipNewline_lead (head?_escapeFrom (t := t) rest)
    exact (congrArg longBasic? hskip).trans hread
  · rw [h]
    have ht := plain_of_holds hcontrol hline hquotes
    simp only [List.append_assoc, List.singleton_append]
    rw [List.cons_append, string?_literal (not_longLiteral (fun b hb => (ht b hb).2) hsingle)]
    exact literal?_append ht rest
  · rw [h]
    have ht := plain_of_holdsControl hcontrol
    have hread := longLiteral?_append (runsUpTo_of_longestRun hquotes) ht hsingle
    simp only [List.append_assoc]
    refine (string?_longLiteral _).trans ?_
    have hskip := skipNewline_lead fun hline => head?_append rest fun b hb =>
      ⟨(ht b hb).resolve_right (ne_newline_of_holdsNewline hline b hb),
        ne_newline_of_holdsNewline hline b hb⟩
    exact (congrArg longLiteral? hskip).trans hread

/-! ## Keys -/

theorem isBareKey_iff {t : Text} :
    isBareKey t = true ↔ t ≠ [] ∧ ∀ b ∈ t, isBareKeyByte b = true := by
  rw [isBareKey, Bool.and_eq_true, List.all_eq_true]
  exact and_congr_left' (by simp)

/-- A bare key is read up to the next byte that may not stand in one. -/
theorem keyPart?_bare {t rest : Text} (ht : isBareKey t = true)
    (hrest : ∀ b ∈ rest.head?, isBareKeyByte b = false) :
    keyPart? (t ++ rest) = some (t, rest) := by
  obtain ⟨hne, hall⟩ := isBareKey_iff.1 ht
  obtain ⟨c, t, rfl⟩ := List.exists_cons_of_ne_nil hne
  have hc := hall c List.mem_cons_self
  have hnot : ∀ quote, isBareKeyByte quote = false →
      [quote].isPrefixOf (c :: t ++ rest) = false := by
    intro quote hquote
    have hne : quote ≠ c := by
      rintro rfl
      rw [hc] at hquote
      cases hquote
    simp [List.isPrefixOf, hne]
  have hstop : rest.takeWhile isBareKeyByte = [] ∧ rest.dropWhile isBareKeyByte = rest := by
    cases rest with
    | nil => exact ⟨rfl, rfl⟩
    | cons b rest => simp [hrest b rfl]
  rw [keyPart?, hnot doubleQuote (by decide), hnot singleQuote (by decide),
    List.takeWhile_append_of_pos hall, List.dropWhile_append_of_pos hall, hstop.1, hstop.2,
    List.append_nil]
  rfl

/-- The first byte of a key. -/
def StartsKey (b : UInt8) : Prop :=
  isBareKeyByte b = true ∨ b = doubleQuote ∨ b = singleQuote

/-- A key does not start as blanks, comments, headers or the mark of a file do. -/
theorem StartsKey.apart {b : UInt8} (h : StartsKey b) : isWhitespace b = false ∧ b ≠ hash ∧
    b ≠ 0x0A ∧ b ≠ 0x0D ∧ b ≠ leftBracket ∧ b ≠ 0xEF := by
  rcases h with hb | rfl | rfl
  · grind [isBareKeyByte, isAlphanumeric, isLetter, isDigit, isWhitespace]
  · decide
  · decide

theorem head?_writeKey (t rest : Text) :
    ∃ b w, writeKey t ++ rest = b :: w ∧ StartsKey b := by
  unfold writeKey
  split
  · rename_i hbare
    obtain ⟨hne, hall⟩ := isBareKey_iff.1 hbare
    obtain ⟨c, t, rfl⟩ := List.exists_cons_of_ne_nil hne
    exact ⟨c, t ++ rest, rfl, .inl (hall c List.mem_cons_self)⟩
  · dsimp only
    split
    · exact ⟨doubleQuote, _, rfl, .inr (.inl rfl)⟩
    split
    · exact ⟨singleQuote, _, rfl, .inr (.inr rfl)⟩
    · exact ⟨doubleQuote, _, rfl, .inr (.inl rfl)⟩

/-- A key is read as it was written. -/
theorem keyPart?_writeKey (t : Text) {rest : Text}
    (hrest : ∀ b ∈ rest.head?, isBareKeyByte b = false) :
    keyPart? (writeKey t ++ rest) = some (t, rest) := by
  have hbasic : keyPart? ([doubleQuote] ++ escapeFrom false 0 t ++ [doubleQuote] ++ rest) =
      some (t, rest) := by
    have hread := basic?_escapeFrom 0 t rest
    simp only [List.append_assoc]
    exact hread
  unfold writeKey
  split
  · rename_i hbare
    exact keyPart?_bare hbare hrest
  · dsimp only
    split
    · exact hbasic
    split
    · rename_i h
      simp only [Bool.and_eq_true, Bool.not_eq_true', Bool.or_eq_false_iff, decide_eq_true_eq] at h
      have hread := literal?_append (plain_of_holds h.1.1 h.1.2 h.2) rest
      simp only [List.append_assoc]
      exact hread
    · exact hbasic

/-- No white space stands in front of a key. -/
theorem dropWhile_writeKey (t rest : Text) :
    (writeKey t ++ rest).dropWhile isWhitespace = writeKey t ++ rest := by
  obtain ⟨b, w, hw, hb⟩ := head?_writeKey t rest
  rw [hw, List.dropWhile_cons_of_neg (by simp [hb.apart.1])]

/-! ## What is written is a string -/

namespace Escaped

variable {long : Bool} {quotes : Nat} {b : UInt8} {written : Text}

/-- A byte of a longer character is written as it is. -/
theorem eq_of_not_isAscii (h : Escaped long quotes b written) (hb : isAscii b = false) :
    written = [b] := by
  cases h with
  | quote _ _ he => rw [he] at hb; cases hb
  | newline _ he => rw [he] at hb; cases hb
  | plain _ _ _ => rfl
  | short hx => rw [(isAscii_of_shortEscape hx).2] at hb; cases hb
  | codePoint he => rw [he] at hb; cases hb

theorem isAscii (h : Escaped long quotes b written) (hb : isAscii b = true) :
    ∀ x ∈ written, Byte.isAscii x = true := by
  cases h with
  | quote _ _ _ => exact List.forall_mem_singleton.2 rfl
  | newline _ _ => exact List.forall_mem_singleton.2 rfl
  | plain _ _ _ => simpa using hb
  | short hx =>
    exact List.forall_mem_cons.2 ⟨rfl, by simpa using (isAscii_of_shortEscape hx).1⟩
  | codePoint _ =>
    have htable : ∀ b, (fourDigits b).all Byte.isAscii = true :=
      forall_of_table (by decide +kernel)
    have hmark : ([backslash, 0x75] : Text).all Byte.isAscii = true := by decide
    refine List.all_eq_true.1 ?_
    rw [List.all_append, hmark, htable]
    rfl

end Escaped

theorem isValid_escapeFrom (long : Bool) (quotes : Nat) {t : Text} (ht : t.IsValid) :
    Text.IsValid (escapeFrom long quotes t) := by
  -- the bytes of a character that is not ASCII stay together
  have hkeep : ∀ (bs : List UInt8), (∀ b ∈ bs, isAscii b = false) → ∀ quotes rest,
      ∃ quotes', escapeFrom long quotes (bs ++ rest) = bs ++ escapeFrom long quotes' rest := by
    intro bs
    induction bs with
    | nil => exact fun _ quotes rest => ⟨quotes, rfl⟩
    | cons b bs ih =>
      intro hbs quotes rest
      obtain ⟨hb, hbs⟩ := List.forall_mem_cons.1 hbs
      have hwritten := (escaped_escapeByte long quotes b).eq_of_not_isAscii hb
      obtain ⟨quotes', h⟩ := ih hbs _ rest
      refine ⟨quotes', ?_⟩
      rw [List.cons_append, escapeFrom, hwritten, List.singleton_append, h]
      rfl
  induction ht using Text.IsValid.induction generalizing quotes with
  | nil => exact Text.isValid_nil
  | character c rest hrest ih =>
    rcases Text.utf8EncodeChar_cases c with ⟨b, hc, hb⟩ | ⟨b, bytes, hc, -, hall⟩
    · rw [hc, List.singleton_append, escapeFrom]
      exact (Text.isValid_of_isAscii ((escaped_escapeByte long quotes b).isAscii hb)).append (ih _)
    · obtain ⟨quotes', h⟩ := hkeep (String.utf8EncodeChar c) (by rwa [hc]) quotes rest
      rw [h]
      exact (Text.isValid_encode c).append (ih _)

theorem isValid_writeString {t : Text} (ht : t.IsValid) : Text.IsValid (writeString t) := by
  have hescaped := fun long => isValid_escapeFrom long 0 ht
  have hquotes : ∀ {q : Text}, q.all isAscii = true → Text.IsValid q := fun hq =>
    Text.isValid_of_isAscii (List.all_eq_true.1 hq)
  have hlead : Text.IsValid (if holdsNewline t then [0x0A] else []) := by
    split
    · exact Text.isValid_singleton (by decide)
    · exact Text.isValid_nil
  unfold writeString
  cases Quoting.ofText t with
  | basic => exact ((hquotes (by decide)).append (hescaped false)).append (hquotes (by decide))
  | literal => exact ((hquotes (by decide)).append ht).append (hquotes (by decide))
  | longBasic =>
    exact (((hquotes (by decide)).append hlead).append (hescaped true)).append (hquotes (by decide))
  | longLiteral =>
    exact (((hquotes (by decide)).append hlead).append ht).append (hquotes (by decide))

theorem isValid_writeKey {t : Text} (ht : t.IsValid) : Text.IsValid (writeKey t) := by
  have hquote : Text.IsValid [doubleQuote] := Text.isValid_singleton (by decide)
  have hsingle : Text.IsValid [singleQuote] := Text.isValid_singleton (by decide)
  have hescaped := isValid_escapeFrom false 0 ht
  unfold writeKey
  split
  · exact ht
  · dsimp only
    split
    · exact (hquote.append hescaped).append hquote
    split
    · exact (hsingle.append ht).append hsingle
    · exact (hquote.append hescaped).append hquote

end Shortcode.Toml
