import Shortcode.Proofs.TomlStrings

/-!
# Documents that are written are read

A document of sections is read line by line.  `Reads p t v` says that the lines of `t`, read after
the document so far, lead to the table `v`; it needs no bound on the number of lines.  Each line
`key = "value"` adds the value at the end of the table of the last header, and each header opens a
table at the end of its group.

    document? (writeAll (⟨[], ps⟩ :: hs.map fun h => ⟨[group, h.1], h.2⟩)) =
      some (.table .header (strings ps ++ [(group, .table .implicit …)]))      (document?_writeAll)
-/

namespace Shortcode.Toml

open Byte

/-! ## Keys -/

theorem isWhitespace_of_isQuote : ∀ b, isQuote b = true → isWhitespace b = false := by
  grind [isQuote, isWhitespace]

section

variable {fuel : Nat} {t part after rest stop : Text} {more : List Text}

theorem keyParts?_last (hread : keyPart? (t.dropWhile isWhitespace) = some (part, after))
    (hdot : (after.dropWhile isWhitespace).head? ≠ some dot) :
    keyParts? (fuel + 1) t = some ([part], after.dropWhile isWhitespace) := by
  rw [keyParts?, hread]
  simp only [Option.bind_eq_bind, Option.bind_some]
  split
  · rename_i b rest hrest
    rw [if_neg fun h => hdot (by rw [hrest, h]; rfl)]
    rfl
  · rfl

theorem keyParts?_dot (hread : keyPart? (t.dropWhile isWhitespace) = some (part, after))
    (hafter : after.dropWhile isWhitespace = dot :: rest)
    (hmore : keyParts? fuel rest = some (more, stop)) :
    keyParts? (fuel + 1) t = some (part :: more, stop) := by
  rw [keyParts?, hread]
  simp only [Option.bind_eq_bind, Option.bind_some, hafter, if_true, hmore]
  rfl

end

/-- A part of a key and a byte that ends it. -/
theorem keyPart?_cons (key : Text) {b : UInt8} (hb : isBareKeyByte b = false) (rest : Text) :
    keyPart? ((writeKey key ++ b :: rest).dropWhile isWhitespace) = some (key, b :: rest) := by
  rw [dropWhile_writeKey]
  refine keyPart?_writeKey key ?_
  rintro _ ⟨⟩
  exact hb

/-- Parts of a key with dots between them. -/
theorem keyParts?_path {fuel : Nat} {path : List Text} (hne : path ≠ []) (hle : path.length ≤ fuel)
    {rest : Text} (hrest : ∀ b ∈ rest.head?, isBareKeyByte b = false)
    (hdot : (rest.dropWhile isWhitespace).head? ≠ some dot) :
    keyParts? fuel ([dot].intercalate (path.map writeKey) ++ rest) =
      some (path, rest.dropWhile isWhitespace) := by
  induction path generalizing fuel with
  | nil => exact absurd rfl hne
  | cons key path ih =>
    cases fuel with
    | zero => exact absurd hle (Nat.not_succ_le_zero _)
    | succ fuel =>
      cases path with
      | nil =>
        have htext : [dot].intercalate ([key].map writeKey) = writeKey key := by
          simp [List.intercalate]
        rw [htext]
        refine keyParts?_last ?_ hdot
        rw [dropWhile_writeKey, keyPart?_writeKey key hrest]
      | cons key' path =>
        have htext : [dot].intercalate ((key :: key' :: path).map writeKey) ++ rest =
            writeKey key ++ dot :: ([dot].intercalate ((key' :: path).map writeKey) ++ rest) := by
          simp [List.intercalate]
        rw [htext]
        exact keyParts?_dot (keyPart?_cons key rfl _) rfl
          (ih (List.cons_ne_nil _ _) (Nat.le_of_succ_le_succ hle))

/-! ## Lines -/

/-- The first byte of a string. -/
theorem head?_writeString (t rest : Text) :
    ∃ b w, writeString t ++ rest = b :: w ∧ isQuote b = true := by
  unfold writeString
  dsimp only
  cases Quoting.ofText t
  · exact ⟨doubleQuote, _, rfl, rfl⟩
  · exact ⟨singleQuote, _, rfl, rfl⟩
  · exact ⟨doubleQuote, _, rfl, rfl⟩
  · exact ⟨singleQuote, _, rfl, rfl⟩

theorem value?_writeString (depth : Nat) (t : Text) {rest : Text}
    (hrest : ∀ b ∈ rest.head?, isQuote b = false) :
    value? depth (writeString t ++ rest) = some (.string t, rest) := by
  have hread := string?_writeString t hrest
  obtain ⟨b, w, hw, hb⟩ := head?_writeString t rest
  rw [hw] at hread ⊢
  rw [value?.eq_def]
  simp only [hb, if_true, hread, Option.map_some]

theorem writePair_append (key t rest : Text) : writePair key t ++ rest =
    writeKey key ++ 0x20 :: equals :: 0x20 :: (writeString t ++ 0x0A :: rest) := by
  simp only [writePair, List.append_assoc]
  rfl

theorem pair?_writePair (key t rest : Text) :
    pair? (value? nesting) (writePair key t ++ rest) =
      some (([key], .string t), 0x0A :: rest) := by
  have hkey : key? (writePair key t ++ rest) =
      some ([key], equals :: 0x20 :: (writeString t ++ 0x0A :: rest)) := by
    rw [writePair_append]
    exact keyParts?_last (keyPart?_cons key rfl _) nofun
  have hspace : (0x20 :: (writeString t ++ 0x0A :: rest)).dropWhile isWhitespace =
      writeString t ++ 0x0A :: rest := by
    obtain ⟨b, w, hw, hb⟩ := head?_writeString t (0x0A :: rest)
    have hnot : isWhitespace b = false := isWhitespace_of_isQuote b hb
    rw [List.dropWhile_cons_of_pos rfl, hw, List.dropWhile_cons_of_neg (by simp [hnot])]
  have hvalue : value? nesting (writeString t ++ 0x0A :: rest) = some (.string t, 0x0A :: rest) :=
    value?_writeString nesting t (by rintro b ⟨⟩; decide)
  rw [pair?, hkey]
  simp only [Option.bind_eq_bind, Option.bind_some, expect?, if_true, hspace, hvalue]
  rfl

theorem headerKey?_path {path : List Text} (hne : path ≠ []) (hle : path.length ≤ nesting)
    (rest : Text) :
    headerKey? [rightBracket] ([dot].intercalate (path.map writeKey) ++ rightBracket :: rest) =
      some (path, rest) := by
  have hkey : key? ([dot].intercalate (path.map writeKey) ++ rightBracket :: rest) =
      some (path, rightBracket :: rest) :=
    keyParts?_path hne hle (by rintro b ⟨⟩; decide) nofun
  rw [headerKey?, hkey]
  rfl

/-- The first byte of a line. -/
def StartsLine (b : UInt8) : Prop :=
  isWhitespace b = false ∧ b ≠ hash ∧ b ≠ 0x0A ∧ b ≠ 0x0D

theorem skipBlank?_of_startsLine {b : UInt8} (hb : StartsLine b) (rest : Text) :
    skipBlank? false (b :: rest) = some (b :: rest) := by
  obtain ⟨hspace, hhash, hline, hreturn⟩ := hb
  simp [skipBlank?, isLineEnd, hspace, hhash, hline, hreturn]

theorem endLine?_newline (rest : Text) : endLine? (0x0A :: rest) = some rest := rfl

/-- The first byte of a key starts a line that is no header. -/
theorem startsLine_writeKey (t rest : Text) :
    ∃ b w, writeKey t ++ rest = b :: w ∧ StartsLine b ∧ b ≠ leftBracket := by
  obtain ⟨b, w, hw, hb⟩ := head?_writeKey t rest
  obtain ⟨hspace, hhash, hline, hreturn, hbracket, -⟩ := hb.apart
  exact ⟨b, w, hw, ⟨hspace, hhash, hline, hreturn⟩, hbracket⟩

/-- The keys of a header start as its first key does. -/
theorem startsLine_path {path : List Text} (hne : path ≠ []) (rest : Text) :
    ∃ b w, [dot].intercalate (path.map writeKey) ++ rest = b :: w ∧ StartsLine b ∧
      b ≠ leftBracket := by
  obtain ⟨key, more, rfl⟩ := List.exists_cons_of_ne_nil hne
  obtain ⟨w, hw⟩ : ∃ w, [dot].intercalate ((key :: more).map writeKey) = writeKey key ++ w := by
    cases more with
    | nil => exact ⟨[], by simp [List.intercalate]⟩
    | cons key' more =>
      exact ⟨dot :: [dot].intercalate ((key' :: more).map writeKey), by simp [List.intercalate]⟩
  rw [hw, List.append_assoc]
  exact startsLine_writeKey key (w ++ rest)

/-! ## Reading line by line -/

/-- Read after the document so far, the lines of `t` lead to the table `v`. -/
def Reads (p : Progress) (t : Text) (v : Value) : Prop :=
  ∀ fuel, t.length < fuel → statements? fuel p t = some v

namespace Reads

variable {p p' : Progress} {t after rest : Text} {v : Value}

theorem nil (p : Progress) : Reads p [] p.table := by
  intro fuel hfuel
  cases fuel with
  | zero => cases hfuel
  | succ fuel => rfl

/-- A blank line adds nothing. -/
theorem blank (h : Reads p t v) : Reads p (0x0A :: t) v := by
  intro fuel hfuel
  cases fuel with
  | zero => cases hfuel
  | succ fuel => exact h (fuel + 1) (Nat.lt_of_succ_lt hfuel)

/-- A line and what follows it. -/
theorem line {b : UInt8} {w : Text} (ht : t = b :: w) (hb : StartsLine b)
    (hstatement : statement? p t = some (p', 0x0A :: rest)) (hlt : rest.length < t.length)
    (h : Reads p' rest v) : Reads p t v := by
  intro fuel hfuel
  cases fuel with
  | zero => cases hfuel
  | succ fuel =>
    have hskip : skipBlank? false t = some t := by rw [ht, skipBlank?_of_startsLine hb]
    have hempty : t.isEmpty = false := by rw [ht]; rfl
    rw [statements?, hskip]
    simp only [Option.bind_eq_bind, Option.bind_some, hempty, Bool.false_eq_true, if_false,
      hstatement, endLine?_newline]
    exact h fuel (by omega)

/-- The line of a key. -/
theorem pair {key value : Text} {table : Value}
    (hput : p.table.changeAt .implicit (·.putAt [key] (.string value)) p.path = some table)
    (h : Reads ⟨table, p.path⟩ rest v) : Reads p (writePair key value ++ rest) v := by
  have htext := writePair_append key value rest
  obtain ⟨b, w, hw, hb, hbracket⟩ := startsLine_writeKey key
    (0x20 :: equals :: 0x20 :: (writeString value ++ 0x0A :: rest))
  rw [← htext] at hw
  refine line hw hb ?_ ?_ h
  · have hheader : [leftBracket, leftBracket].isPrefixOf (writePair key value ++ rest) = false ∧
        [leftBracket].isPrefixOf (writePair key value ++ rest) = false := by
      rw [hw]
      simp [List.isPrefixOf, hbracket.symm]
    rw [statement?, hheader.1, hheader.2]
    simp only [Bool.false_eq_true, if_false, pair?_writePair, Option.bind_eq_bind,
      Option.bind_some, hput]
    rfl
  · rw [htext]
    simp only [List.length_append, List.length_cons]
    omega

/-- The line of a header. -/
theorem header {path : List Text} {last : Text} {table : Value}
    (hle : path.length ≤ nesting) (hlast : path.getLast? = some last)
    (hopen : p.table.changeAt .implicit (Value.openTable last) path.dropLast = some table)
    (h : Reads ⟨table, path⟩ rest v) : Reads p (writeHeader path ++ rest) v := by
  have hne : path ≠ [] := by
    rintro rfl
    cases hlast
  have htext : writeHeader path ++ rest = leftBracket ::
      ([dot].intercalate (path.map writeKey) ++ rightBracket :: 0x0A :: rest) := by
    simp only [writeHeader, List.append_assoc]
    rfl
  refine line htext ⟨by decide, by decide, by decide, by decide⟩ ?_ ?_ h
  · obtain ⟨b, w, hw, -, hbracket⟩ := startsLine_path hne (rightBracket :: 0x0A :: rest)
    have hdouble : [leftBracket, leftBracket].isPrefixOf (writeHeader path ++ rest) = false := by
      rw [htext, hw]
      simp [List.isPrefixOf, hbracket.symm]
    have hsingle : [leftBracket].isPrefixOf (writeHeader path ++ rest) = true := by
      rw [htext]
      rfl
    have hkey := headerKey?_path hne hle (0x0A :: rest)
    rw [statement?, hdouble, hsingle, htext]
    simp only [Bool.false_eq_true, if_false, if_true, List.drop_one, List.tail_cons, hkey,
      Option.bind_eq_bind, Option.bind_some, hlast, hopen]
    rfl
  · rw [htext]
    simp only [List.length_append, List.length_cons]
    omega

end Reads

/-! ## Tables -/

/-- The entries of a table of strings. -/
def strings (pairs : List (Text × Text)) : List (Text × Value) :=
  pairs.map fun p => (p.1, .string p.2)

theorem lookup_eq_none_iff {α : Type} {key : Text} {entries : List (Text × α)} :
    entries.lookup key = none ↔ key ∉ entries.map (·.1) := by
  rw [List.lookup_eq_none_iff, List.mem_map]
  constructor
  · rintro h ⟨e, he, rfl⟩
    simpa using h e he
  · intro h e he
    exact bne_iff_ne.2 fun hk => h ⟨e, he, hk.symm⟩

namespace Value

section

variable {key : Text} {entries : List (Text × Value)} {v child : Value}

theorem lookup_concat (h : key ∉ entries.map (·.1)) :
    (entries ++ [(key, v)]).lookup key = some v := by
  rw [List.lookup_append, lookup_eq_none_iff.2 h]
  simp

theorem replace_concat (h : key ∉ entries.map (·.1)) :
    replace key child (entries ++ [(key, v)]) = entries ++ [(key, child)] := by
  have hothers : entries.map (fun e => if e.1 = key then (key, child) else e) = entries := by
    refine (List.map_congr_left fun e he => ?_).trans (List.map_id _)
    exact if_neg fun hk => h (List.mem_map.2 ⟨e, he, hk⟩)
  rw [replace, List.map_append, hothers]
  simp

/-- A path leads through the last table of a table. -/
theorem changeAt_concat {kind own inner : TableKind} {change : Value → Option Value}
    {path : List Text} {es : List (Text × Value)} (h : key ∉ entries.map (·.1))
    (hleads : leadsOn kind (.table inner es) = true)
    (hchange : changeAt kind change path (.table inner es) = some child) :
    changeAt kind change (key :: path) (.table own (entries ++ [(key, .table inner es)])) =
      some (.table own (entries ++ [(key, child)])) := by
  rw [changeAt, lookup_concat h]
  simp only [hleads, if_true, hchange, replace_concat h]
  rfl

/-- A key that is new is put at the end of a table. -/
theorem putAt_single (h : key ∉ entries.map (·.1)) :
    putAt (.table .header entries) [key] v = some (.table .header (entries ++ [(key, v)])) := by
  have hnone : (entries.lookup key).isSome = false := by rw [lookup_eq_none_iff.2 h]; rfl
  show putNew false key v (.table .header entries) = _
  rw [putNew, hnone]
  rfl

end

/-- In `hole es`, the path leads to the table with the entries `es`. -/
def LeadsTo (path : List Text) (hole : List (Text × Value) → Value) : Prop :=
  ∀ change es es', change (.table .header es) = some (.table .header es') →
    changeAt .implicit change path (hole es) = some (hole es')

theorem leadsTo_nil : LeadsTo [] (.table .header) := by
  intro change es es' h
  rwa [changeAt]

end Value

namespace Reads

variable {rest : Text} {v : Value}

/-- The lines of new keys fill the table of the last header. -/
theorem pairs {path : List Text} {hole : List (Text × Value) → Value}
    (hpath : Value.LeadsTo path hole) (entries : List (Text × Value)) {ps : List (Text × Text)}
    (hnew : ∀ p ∈ ps, p.1 ∉ entries.map (·.1)) (hdistinct : (ps.map (·.1)).Nodup)
    (h : Reads ⟨hole (entries ++ strings ps), path⟩ rest v) :
    Reads ⟨hole entries, path⟩ (ps.flatMap (fun p => writePair p.1 p.2) ++ rest) v := by
  induction ps generalizing entries with
  | nil =>
    rw [strings, List.map_nil, List.append_nil] at h
    exact h
  | cons p ps ih =>
    obtain ⟨hp, hps⟩ := List.forall_mem_cons.1 hnew
    obtain ⟨hnot, hdistinct⟩ := List.nodup_cons.1 hdistinct
    rw [List.flatMap_cons, List.append_assoc]
    refine pair (hpath _ _ _ (Value.putAt_single hp)) (ih _ ?_ hdistinct ?_)
    · intro q hq hmem
      rw [List.map_append, List.mem_append] at hmem
      rcases hmem with hmem | hmem
      · exact hps q hq hmem
      · exact hnot (List.mem_map.2 ⟨q, hq, List.mem_singleton.1 hmem⟩)
    · rw [List.append_assoc]
      exact h

end Reads

/-! ## Groups of tables -/

/-- The entries of a group of tables of strings. -/
def tables (hs : List (Text × List (Text × Text))) : List (Text × Value) :=
  hs.map fun h => (h.1, .table .header (strings h.2))

section

variable {front : List (Text × Value)} {group tag : Text} {es others : List (Text × Value)}

/-- A document with a group of tables behind the entries `front`. -/
def grouped (front : List (Text × Value)) (group : Text) (es : List (Text × Value)) : Value :=
  .table .header (front ++ [(group, .table .implicit es)])

theorem leadsTo_grouped (hgroup : group ∉ front.map (·.1)) (htag : tag ∉ others.map (·.1)) :
    Value.LeadsTo [group, tag] fun es =>
      grouped front group (others ++ [(tag, .table .header es)]) := by
  intro change es es' h
  exact Value.changeAt_concat hgroup rfl (Value.changeAt_concat htag rfl h)

/-- A header opens a new table of its group. -/
theorem openTable_grouped (hgroup : group ∉ front.map (·.1)) (htag : tag ∉ others.map (·.1)) :
    (grouped front group others).changeAt .implicit (Value.openTable tag) [group] =
      some (grouped front group (others ++ [(tag, .table .header [])])) := by
  refine Value.changeAt_concat hgroup rfl ?_
  rw [Value.changeAt, Value.openTable, lookup_eq_none_iff.2 htag]

/-- The first header of a group makes the group. -/
theorem openTable_first (hgroup : group ∉ front.map (·.1)) :
    (Value.table .header front).changeAt .implicit (Value.openTable tag) [group] =
      some (grouped front group [(tag, .table .header [])]) := by
  rw [Value.changeAt, lookup_eq_none_iff.2 hgroup]
  rfl

end

/-- The section of a table in a group. -/
def Section.inGroup (group : Text) (h : Text × List (Text × Text)) : Section :=
  ⟨[group, h.1], h.2⟩

/-- The names of tables in a group and the keys of each table are distinct. -/
structure Distinct (hs : List (Text × List (Text × Text))) : Prop where
  names : (hs.map (·.1)).Nodup
  keys : ∀ h ∈ hs, (h.2.map (·.1)).Nodup

namespace Reads

variable {front others : List (Text × Value)} {group : Text} {rest : Text} {v table : Value}
  {path : List Text}

/-- The section of one table in a group. -/
theorem tableInGroup (path : List Text) {h : Text × List (Text × Text)}
    (hgroup : group ∉ front.map (·.1))
    (hname : h.1 ∉ others.map (·.1)) (hkeys : (h.2.map (·.1)).Nodup)
    (hopen : table.changeAt .implicit (Value.openTable h.1) [group] =
      some (grouped front group (others ++ [(h.1, .table .header [])])))
    (hrest : Reads ⟨grouped front group (others ++ tables [h]), [group, h.1]⟩ rest v) :
    Reads ⟨table, path⟩ ((Section.inGroup group h).write ++ rest) v := by
  have htext : (Section.inGroup group h).write ++ rest = writeHeader [group, h.1] ++
      (h.2.flatMap (fun p => writePair p.1 p.2) ++ rest) := List.append_assoc ..
  have hlength : [group, h.1].length ≤ nesting := by
    rw [nesting, List.length_cons, List.length_singleton]
    decide
  rw [htext]
  refine header hlength rfl hopen ?_
  exact pairs (leadsTo_grouped hgroup hname) [] (fun _ _ => List.not_mem_nil) hkeys hrest

/-- The sections of a group are read one after the other; each one opens behind those before it. -/
theorem tablesInGroup (others : List (Text × Value)) (hgroup : group ∉ front.map (·.1))
    {hs : List (Text × List (Text × Text))} (hne : hs ≠ [])
    (hopen : ∀ tag, tag ∉ others.map (·.1) →
      table.changeAt .implicit (Value.openTable tag) [group] =
        some (grouped front group (others ++ [(tag, .table .header [])])))
    (hnew : ∀ h ∈ hs, h.1 ∉ others.map (·.1)) (hdistinct : Distinct hs) :
    Reads ⟨table, path⟩
      (([0x0A] : Text).intercalate (hs.map fun h => (Section.inGroup group h).write))
      (grouped front group (others ++ tables hs)) := by
  induction hs generalizing others table path with
  | nil => exact absurd rfl hne
  | cons h hs ih =>
    obtain ⟨hh, hhs⟩ := List.forall_mem_cons.1 hnew
    obtain ⟨hnot, hnames⟩ := List.nodup_cons.1 hdistinct.names
    obtain ⟨hkeys, hkeys'⟩ := List.forall_mem_cons.1 hdistinct.keys
    cases hs with
    | nil =>
      have hread := tableInGroup path hgroup hh hkeys (hopen h.1 hh) (.nil _)
      rw [List.append_nil] at hread
      simpa [List.intercalate] using hread
    | cons h' hs =>
      have htext : ([0x0A] : Text).intercalate
            ((h :: h' :: hs).map fun h => (Section.inGroup group h).write) =
          (Section.inGroup group h).write ++
            0x0A :: ([0x0A] : Text).intercalate
              ((h' :: hs).map fun h => (Section.inGroup group h).write) := by
        simp [List.intercalate]
      have htables : others ++ tables (h :: h' :: hs) =
          (others ++ tables [h]) ++ tables (h' :: hs) := by
        rw [List.append_assoc]
        rfl
      have hnames' : (others ++ tables [h]).map (·.1) = others.map (·.1) ++ [h.1] := by
        rw [List.map_append]
        rfl
      rw [htext, htables]
      refine tableInGroup _ hgroup hh hkeys (hopen h.1 hh) (.blank ?_)
      refine ih _ (List.cons_ne_nil _ _) (fun tag htag => openTable_grouped hgroup htag) ?_
        ⟨hnames, hkeys'⟩
      intro h'' hmem hold
      rw [hnames', List.mem_append, List.mem_singleton] at hold
      rcases hold with hold | hold
      · exact hhs h'' hmem hold
      · exact hnot (List.mem_map.2 ⟨h'', hmem, hold⟩)

end Reads

/-! ## What is written is a string -/

/-- The keys and the strings of a section are valid. -/
structure Section.IsValid (s : Section) : Prop where
  path : ∀ key ∈ s.path, key.IsValid
  pairs : ∀ p ∈ s.pairs, p.1.IsValid ∧ p.2.IsValid

theorem isValid_intercalate {separator : Text} (hseparator : separator.IsValid) {ts : List Text}
    (hts : ∀ t ∈ ts, t.IsValid) : Text.IsValid (separator.intercalate ts) := by
  induction ts with
  | nil => exact Text.isValid_nil
  | cons t ts ih =>
    obtain ⟨ht, hts⟩ := List.forall_mem_cons.1 hts
    cases ts with
    | nil => simpa [List.intercalate] using ht
    | cons t' ts =>
      have htext : separator.intercalate (t :: t' :: ts) =
          t ++ (separator ++ separator.intercalate (t' :: ts)) := by
        simp [List.intercalate]
      rw [htext]
      exact ht.append (hseparator.append (ih hts))

theorem isValid_flatMap {α : Type} {xs : List α} {f : α → Text} (h : ∀ x ∈ xs, (f x).IsValid) :
    Text.IsValid (xs.flatMap f) := by
  induction xs with
  | nil => exact Text.isValid_nil
  | cons x xs ih =>
    obtain ⟨hx, hxs⟩ := List.forall_mem_cons.1 h
    exact hx.append (ih hxs)

namespace Section.IsValid

variable {s : Section} {sections : List Section}

theorem write (h : s.IsValid) : s.write.IsValid := by
  refine Text.IsValid.append ?_ (isValid_flatMap fun p hp => ?_)
  · split
    · exact Text.isValid_nil
    · have hkeys : ∀ t ∈ s.path.map writeKey, t.IsValid :=
        List.forall_mem_map.2 fun key hkey => isValid_writeKey (h.path key hkey)
      exact ((Text.isValid_singleton (by decide)).append
        (isValid_intercalate (Text.isValid_singleton (by decide)) hkeys)).append
          (Text.isValid_of_isAscii (List.all_eq_true.1 (by decide)))
  · obtain ⟨hkey, hvalue⟩ := h.pairs p hp
    exact (((isValid_writeKey hkey).append (Text.isValid_ofString _)).append
      (isValid_writeString hvalue)).append (Text.isValid_singleton (by decide))

theorem writeAll (h : ∀ s ∈ sections, s.IsValid) : (Section.writeAll sections).IsValid :=
  isValid_intercalate (Text.isValid_singleton (by decide))
    (List.forall_mem_map.2 fun s hs => (h s hs).write)

end Section.IsValid

/-! ## Main statement -/

/-- A document that starts with a key has no mark in front. -/
theorem document?_of_reads (key : Text) {t : Text} {v : Value} (hkey : writeKey key <+: t)
    (h : Reads ⟨.root, []⟩ t v) : document? t = some v := by
  obtain ⟨rest, rfl⟩ := hkey
  obtain ⟨b, w, hw, hb⟩ := head?_writeKey key rest
  obtain ⟨-, -, -, -, -, hmark⟩ := hb.apart
  have hnone : byteOrderMark.isPrefixOf (writeKey key ++ rest) = false := by
    rw [hw]
    simp [byteOrderMark, List.isPrefixOf, hmark.symm]
  rw [document?, hnone]
  exact h _ (Nat.lt_succ_self _)

section

variable {ps : List (Text × Text)} {group : Text}

theorem writeAll_cons {sections : List Section} (hne : sections ≠ []) :
    Section.writeAll (⟨[], ps⟩ :: sections) =
      ps.flatMap (fun p => writePair p.1 p.2) ++ 0x0A :: Section.writeAll sections := by
  obtain ⟨s, sections, rfl⟩ := List.exists_cons_of_ne_nil hne
  simp [Section.writeAll, Section.write, List.intercalate]

/-- The keys in front of all headers, with a blank line behind them. -/
theorem document?_front (hps : ps ≠ []) (hkeys : (ps.map (·.1)).Nodup) {sections : List Section}
    (hne : sections ≠ []) {v : Value}
    (h : Reads ⟨.table .header (strings ps), []⟩ (Section.writeAll sections) v) :
    document? (Section.writeAll (⟨[], ps⟩ :: sections)) = some v := by
  have hreads : Reads ⟨.root, []⟩ (Section.writeAll (⟨[], ps⟩ :: sections)) v := by
    rw [writeAll_cons hne]
    exact .pairs Value.leadsTo_nil [] (fun _ _ => List.not_mem_nil) hkeys (.blank h)
  obtain ⟨p, ps, rfl⟩ := List.exists_cons_of_ne_nil hps
  refine document?_of_reads p.1 ?_ hreads
  rw [writeAll_cons hne, List.flatMap_cons, writePair]
  simp only [List.append_assoc]
  exact List.prefix_append _ _

theorem names_strings : (strings ps).map (·.1) = ps.map (·.1) := by
  rw [strings, List.map_map]
  rfl

/-- A document of keys and of a group of tables is read as it was written. -/
theorem document?_writeAll {hs : List (Text × List (Text × Text))} (hps : ps ≠ [])
    (hkeys : (ps.map (·.1)).Nodup) (hgroup : group ∉ ps.map (·.1)) (hhs : hs ≠ [])
    (hdistinct : Distinct hs) :
    document? (Section.writeAll (⟨[], ps⟩ :: hs.map (Section.inGroup group))) =
      some (grouped (strings ps) group (tables hs)) := by
  refine document?_front hps hkeys (by simpa using hhs) ?_
  rw [Section.writeAll, List.map_map]
  rw [← names_strings] at hgroup
  exact .tablesInGroup [] hgroup hhs (fun tag _ => openTable_first hgroup)
    (fun _ _ => List.not_mem_nil) hdistinct

/-- A document of keys and of an empty table. -/
theorem document?_writeAll_empty (hps : ps ≠ []) (hkeys : (ps.map (·.1)).Nodup)
    (hgroup : group ∉ ps.map (·.1)) :
    document? (Section.writeAll [⟨[], ps⟩, ⟨[group], []⟩]) =
      some (.table .header (strings ps ++ [(group, .table .header [])])) := by
  have hlength : [group].length ≤ nesting := by
    rw [nesting, List.length_singleton]
    decide
  have hopen : (Value.table .header (strings ps)).changeAt .implicit (Value.openTable group) [] =
      some (.table .header (strings ps ++ [(group, .table .header [])])) := by
    rw [Value.changeAt, Value.openTable, lookup_eq_none_iff.2 (by rwa [names_strings])]
  have htext : Section.writeAll [⟨[group], []⟩] = writeHeader [group] ++ [] := by
    simp [Section.writeAll, Section.write, List.intercalate]
  refine document?_front hps hkeys (List.cons_ne_nil _ _) ?_
  rw [htext]
  exact .header hlength rfl hopen (.nil _)

end

end Shortcode.Toml
