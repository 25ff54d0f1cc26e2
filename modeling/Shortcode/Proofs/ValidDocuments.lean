import Shortcode.Proofs.ValidReading

/-!
# Documents that are strings hold strings

A value is valid if all its texts are, the keys of its tables among them.  Every way to change a
table keeps that, so the lines of a valid document fill a valid table.

    t.IsValid → document? t = some v → v.IsValid                         (isValid_of_document?)
    v.IsValid → v.Holds w → w.IsValid                                        (IsValid.of_holds)
-/

namespace Shortcode.Toml

open Byte

/-! ## Values -/

/-- The strings and keys in a value are strings. -/
inductive Value.IsValid : Value → Prop
  | string {t : Text} (h : t.IsValid) : IsValid (.string t)
  | integer (n : Option Int) : IsValid (.integer n)
  | float (inRange : Bool) : IsValid (.float inRange)
  | boolean (b : Bool) : IsValid (.boolean b)
  | dateTime : IsValid .dateTime
  | array {ofTables : Bool} {items : List Value} (h : ∀ v ∈ items, IsValid v) :
    IsValid (.array ofTables items)
  | table {kind : TableKind} {entries : List (Text × Value)} (keys : ∀ e ∈ entries, e.1.IsValid)
    (values : ∀ e ∈ entries, IsValid e.2) : IsValid (.table kind entries)

/-- The second value is the first one or stands in it. -/
inductive Value.Holds (v : Value) : Value → Prop
  | self : Holds v v
  | entry {kind : TableKind} {entries : List (Text × Value)} (h : Holds v (.table kind entries))
    {e : Text × Value} (he : e ∈ entries) : Holds v e.2
  | item {ofTables : Bool} {items : List Value} (h : Holds v (.array ofTables items)) {w : Value}
    (hw : w ∈ items) : Holds v w

namespace Value

/-- The entries of a valid table. -/
def EntriesValid (entries : List (Text × Value)) : Prop :=
  ∀ e ∈ entries, e.1.IsValid ∧ e.2.IsValid

theorem isValid_array_iff {ofTables : Bool} {items : List Value} :
    (Value.array ofTables items).IsValid ↔ ∀ v ∈ items, v.IsValid :=
  ⟨fun | .array h => h, .array⟩

theorem isValid_table_iff {kind : TableKind} {entries : List (Text × Value)} :
    (Value.table kind entries).IsValid ↔ EntriesValid entries :=
  ⟨fun | .table keys values => fun e he => ⟨keys e he, values e he⟩,
    fun h => .table (fun e he => (h e he).1) fun e he => (h e he).2⟩

theorem IsValid.of_holds {v w : Value} (hv : v.IsValid) (h : v.Holds w) : w.IsValid := by
  induction h with
  | self => exact hv
  | entry _ he ih => exact (isValid_table_iff.1 ih _ he).2
  | item _ hw ih => exact isValid_array_iff.1 ih _ hw

theorem isValid_empty (kind : TableKind) : (Value.table kind []).IsValid := .table nofun nofun

section

variable {key : Text} {entries : List (Text × Value)} {v v' child : Value}

theorem EntriesValid.of_lookup (h : EntriesValid entries) (hv : entries.lookup key = some v) :
    v.IsValid := by
  induction entries with
  | nil => cases hv
  | cons e entries ih =>
    obtain ⟨he, hentries⟩ := List.forall_mem_cons.1 h
    rw [List.lookup_cons] at hv
    split at hv
    · cases hv
      exact he.2
    · exact ih hentries hv

theorem EntriesValid.concat (h : EntriesValid entries) (hkey : key.IsValid) (hv : v.IsValid) :
    EntriesValid (entries ++ [(key, v)]) :=
  List.forall_mem_append.2 ⟨h, List.forall_mem_singleton.2 ⟨hkey, hv⟩⟩

theorem EntriesValid.replace (h : EntriesValid entries) (hkey : key.IsValid) (hv : v.IsValid) :
    EntriesValid (replace key v entries) := by
  intro e he
  obtain ⟨e', he', rfl⟩ := List.mem_map.1 he
  split
  · exact ⟨hkey, hv⟩
  · exact h e' he'

theorem isValid_putNew {overDots : Bool} (hkey : key.IsValid) (hchild : child.IsValid)
    (hv : v.IsValid) (h : putNew overDots key child v = some v') : v'.IsValid := by
  cases v with
  | table kind entries =>
    rw [putNew] at h
    split at h
    · cases h
    · cases h
      exact isValid_table_iff.2 ((isValid_table_iff.1 hv).concat hkey hchild)
  | _ => cases h

theorem isValid_openTable (hkey : key.IsValid) (hv : v.IsValid) (h : openTable key v = some v') :
    v'.IsValid := by
  cases v with
  | table kind entries =>
    have hentries := isValid_table_iff.1 hv
    rw [openTable] at h
    split at h
    · cases h
      exact isValid_table_iff.2 (hentries.concat hkey (isValid_empty _))
    · rename_i es hes
      cases h
      have hes := isValid_table_iff.1 (hentries.of_lookup hes)
      exact isValid_table_iff.2 (hentries.replace hkey (isValid_table_iff.2 hes))
    · cases h
  | _ => cases h

theorem isValid_openItem (hkey : key.IsValid) (hv : v.IsValid) (h : openItem key v = some v') :
    v'.IsValid := by
  cases v with
  | table kind entries =>
    have hentries := isValid_table_iff.1 hv
    rw [openItem] at h
    split at h
    · cases h
      exact isValid_table_iff.2 (hentries.concat hkey
        (.array (List.forall_mem_singleton.2 (isValid_empty _))))
    · rename_i items hitems
      cases h
      have hitems := isValid_array_iff.1 (hentries.of_lookup hitems)
      exact isValid_table_iff.2 (hentries.replace hkey (.array
        (List.forall_mem_append.2 ⟨hitems, List.forall_mem_singleton.2 (isValid_empty _)⟩)))
    · cases h
  | _ => cases h

end

/-- A change at the end of a path keeps a value valid if the change itself does. -/
theorem isValid_changeAt {kind : TableKind} {change : Value → Option Value}
    (hchange : ∀ v v', v.IsValid → change v = some v' → v'.IsValid) {path : List Text}
    (hpath : KeyIsValid path) {v v' : Value} (hv : v.IsValid)
    (h : changeAt kind change path v = some v') : v'.IsValid := by
  induction path generalizing v v' with
  | nil =>
    rw [changeAt] at h
    exact hchange v v' hv h
  | cons key path ih =>
    obtain ⟨hkey, hpath⟩ := List.forall_mem_cons.1 hpath
    cases v with
    | table own entries =>
      have hentries := isValid_table_iff.1 hv
      rw [changeAt] at h
      split at h
      · obtain ⟨child, hchild, heq⟩ := Option.bind_eq_some_iff.1 h
        cases heq
        exact isValid_table_iff.2 (hentries.concat hkey (ih hpath (isValid_empty kind) hchild))
      · rename_i items hitems
        obtain ⟨last, hlast, h⟩ := Option.bind_eq_some_iff.1 h
        obtain ⟨child, hchild, heq⟩ := Option.bind_eq_some_iff.1 h
        cases heq
        have hitems := isValid_array_iff.1 (hentries.of_lookup hitems)
        have hvalid := ih hpath (hitems last (List.mem_of_getLast? hlast)) hchild
        refine isValid_table_iff.2 (hentries.replace hkey (.array (List.forall_mem_append.2
          ⟨fun v hv => hitems v (List.dropLast_subset items hv),
            List.forall_mem_singleton.2 hvalid⟩)))
      · rename_i inner hinner
        split at h
        · obtain ⟨child, hchild, heq⟩ := Option.bind_eq_some_iff.1 h
          cases heq
          exact isValid_table_iff.2 (hentries.replace hkey
            (ih hpath (hentries.of_lookup hinner) hchild))
        · cases h
    | _ => cases h

theorem isValid_putAt {keys : List Text} {v v' child : Value} (hkeys : KeyIsValid keys)
    (hchild : child.IsValid) (hv : v.IsValid) (h : putAt v keys child = some v') : v'.IsValid := by
  rw [putAt] at h
  obtain ⟨key, hkey, h⟩ := Option.bind_eq_some_iff.1 h
  exact isValid_changeAt
    (fun v v' hv h => isValid_putNew (hkeys key (List.mem_of_getLast? hkey)) hchild hv h)
    (fun part hpart => hkeys part (List.dropLast_subset keys hpart)) hv h

end Value

/-! ## Between values -/

section

variable {t rest : Text}

theorem isValid_expect {b : UInt8} (hb : isAscii b = true) (ht : t.IsValid)
    (h : expect? b t = some rest) : rest.IsValid := by
  cases t with
  | nil => cases h
  | cons c t =>
    rw [expect?] at h
    split at h
    · rename_i hc
      cases h
      exact ht.tail (hc ▸ hb)
    · cases h

/-- In a comment, the bytes read so far belong to the statement. -/
theorem isValid_skipBlank {inComment : Bool} {a : Text} (ha : inComment = true ∨ a = [])
    (ht : Text.IsValid (a ++ t)) (h : skipBlank? inComment t = some rest) : rest.IsValid := by
  fun_induction skipBlank? inComment t generalizing a with
  | case1 =>
    cases h
    exact Text.isValid_nil
  | case2 inComment b t hb ih =>
    exact ih (.inr rfl) (ht.cut_around (isAscii_of_isLineEnd hb)).2 h
  | case3 b t _ _ ih =>
    exact ih (.inl rfl) (List.append_cons a b t ▸ ht) h
  | case4 => cases h
  | case5 inComment b t _ _ hb ih =>
    exact ih (.inr rfl) (ht.cut_around (isAscii_of_isWhitespace b hb)).2 h
  | case6 inComment t _ _ _ ih =>
    exact ih (a := []) (.inl rfl) (ht.cut_around rfl).2 h
  | case7 inComment b t _ hcomment _ _ =>
    cases h
    obtain rfl := ha.resolve_left hcomment
    exact ht

theorem isValid_skipSpace (ht : t.IsValid) (h : skipBlank? false t = some rest) : rest.IsValid :=
  isValid_skipBlank (a := []) (.inr rfl) ht h

theorem isValid_endLine (ht : t.IsValid) (h : endLine? t = some rest) : rest.IsValid := by
  have hline := (ht.cut_asciiRun isAscii_of_isWhitespace).2
  rw [endLine?] at h
  generalize t.dropWhile isWhitespace = line at hline h
  have hafter : Text.IsValid (if line.head? = some hash then line.dropWhile isPlain else line) := by
    split
    · exact (hline.cut_run isAscii_of_not_isPlain).2
    · exact hline
  generalize (if line.head? = some hash then line.dropWhile isPlain else line) = after at hafter h
  split at h
  · cases h
    exact Text.isValid_nil
  · exact isValid_newline hafter h

end

theorem sound_items {α : Type} {item : Text → Option (α × Text)} {P : α → Prop}
    (hitem : Sound item P) {close : UInt8} (hclose : isAscii close = true) (fuel : Nat) :
    Sound (items? item close fuel) fun xs => ∀ x ∈ xs, P x := by
  induction fuel with
  | zero => exact fun _ _ _ _ h => nomatch h
  | succ fuel ih =>
    intro t xs rest ht h
    rw [items?] at h
    obtain ⟨t, hskip, h⟩ := Option.bind_eq_some_iff.1 h
    have ht := isValid_skipSpace ht hskip
    split at h
    · rename_i after hafter
      cases h
      exact ⟨nofun, isValid_expect hclose ht hafter⟩
    · obtain ⟨⟨x, t⟩, hx, h⟩ := Option.bind_eq_some_iff.1 h
      obtain ⟨hvalid, ht⟩ := hitem ht hx
      obtain ⟨t, hskip, h⟩ := Option.bind_eq_some_iff.1 h
      have ht := isValid_skipSpace ht hskip
      split at h
      · rename_i after hafter
        cases h
        exact ⟨List.forall_mem_singleton.2 hvalid, isValid_expect hclose ht hafter⟩
      · obtain ⟨t, hcomma, h⟩ := Option.bind_eq_some_iff.1 h
        obtain ⟨⟨more, stop⟩, hmore, heq⟩ := Option.bind_eq_some_iff.1 h
        cases heq
        obtain ⟨hmore, hrest⟩ := ih (isValid_expect rfl ht hcomma) hmore
        exact ⟨List.forall_mem_cons.2 ⟨hvalid, hmore⟩, hrest⟩

/-! ## Reading values -/

/-- A key and a value that are strings. -/
def PairIsValid (p : List Text × Value) : Prop := KeyIsValid p.1 ∧ p.2.IsValid

section

variable {value : Text → Option (Value × Text)} (hvalue : Sound value Value.IsValid)

include hvalue

theorem sound_pair : Sound (pair? value) PairIsValid := by
  intro t p rest ht h
  rw [pair?] at h
  obtain ⟨⟨key, after⟩, hkey, h⟩ := Option.bind_eq_some_iff.1 h
  obtain ⟨hvalid, hafter⟩ := sound_keyParts nesting ht hkey
  obtain ⟨t, hequals, h⟩ := Option.bind_eq_some_iff.1 h
  obtain ⟨⟨v, stop⟩, hv, heq⟩ := Option.bind_eq_some_iff.1 h
  cases heq
  have ht := (isValid_expect rfl hafter hequals).cut_asciiRun isAscii_of_isWhitespace
  obtain ⟨hv, hrest⟩ := hvalue ht.2 hv
  exact ⟨⟨hvalid, hv⟩, hrest⟩

theorem sound_inlinePair : Sound (inlinePair? value) PairIsValid := by
  intro t p rest ht h
  rw [inlinePair?] at h
  obtain ⟨⟨key, t⟩, hkey, h⟩ := Option.bind_eq_some_iff.1 h
  obtain ⟨hvalid, ht⟩ := sound_keyParts nesting ht hkey
  obtain ⟨t, hskip, h⟩ := Option.bind_eq_some_iff.1 h
  have ht := isValid_skipSpace ht hskip
  obtain ⟨t, hequals, h⟩ := Option.bind_eq_some_iff.1 h
  have ht := isValid_expect rfl ht hequals
  obtain ⟨t, hskip, h⟩ := Option.bind_eq_some_iff.1 h
  have ht := isValid_skipSpace ht hskip
  obtain ⟨⟨v, stop⟩, hv, heq⟩ := Option.bind_eq_some_iff.1 h
  cases heq
  obtain ⟨hv, hrest⟩ := hvalue ht hv
  exact ⟨⟨hvalid, hv⟩, hrest⟩

end

theorem isValid_takeWord {t : Text} (ht : t.IsValid) : (takeWord t).2.IsValid := by
  have hafter := (ht.cut_run isAscii_of_not_isWordByte).2
  rw [takeWord]
  split
  · rename_i space rest hrest
    rw [hrest] at hafter
    split
    · rename_i hspace
      simp only [Bool.and_eq_true, decide_eq_true_eq] at hspace
      have htail := hafter.tail (by rw [hspace.1.2]; rfl)
      exact (htail.cut_run isAscii_of_not_isWordByte).2
    · exact hrest ▸ hafter
  · exact hafter

/-- A word writes no text. -/
theorem isValid_word {word : Text} {v : Value} (h : word? word = some v) : v.IsValid := by
  rw [word?] at h
  split at h
  · cases h
    exact .boolean true
  · split at h
    · cases h
      exact .boolean false
    · split at h
      · cases h
        exact .dateTime
      · split at h
        · cases h
          exact .integer _
        · obtain ⟨inRange, -, rfl⟩ := Option.map_eq_some_iff.1 h
          exact .float inRange

theorem isValid_foldlM_putAt {pairs : List (List Text × Value)}
    (hpairs : ∀ p ∈ pairs, PairIsValid p) {v v' : Value} (hv : v.IsValid)
    (h : pairs.foldlM (fun v p => v.putAt p.1 p.2) v = some v') :
    v'.IsValid := by
  induction pairs generalizing v with
  | nil =>
    cases h
    exact hv
  | cons p pairs ih =>
    obtain ⟨⟨hkey, hvalue⟩, hpairs⟩ := List.forall_mem_cons.1 hpairs
    rw [List.foldlM_cons] at h
    obtain ⟨next, hnext, h⟩ := Option.bind_eq_some_iff.1 h
    exact ih hpairs (Value.isValid_putAt hkey hvalue hv hnext) h

theorem sound_value (depth : Nat) : Sound (value? depth) Value.IsValid := by
  induction depth using Nat.strongRecOn with
  | _ depth ih =>
    intro t v rest ht h
    rw [value?.eq_def] at h
    cases t with
    | nil => cases h
    | cons b t =>
      simp only at h
      split at h
      · obtain ⟨⟨s, after⟩, hs, heq⟩ := Option.map_eq_some_iff.1 h
        cases heq
        obtain ⟨hs, hrest⟩ := sound_string ht hs
        exact ⟨.string hs, hrest⟩
      · split at h
        · rename_i hbracket
          split at h
          · cases h
          · rename_i depth
            obtain ⟨⟨vs, after⟩, hvs, heq⟩ := Option.map_eq_some_iff.1 h
            cases heq
            have ht := ht.tail (by rw [hbracket]; rfl)
            obtain ⟨hvs, hrest⟩ := sound_items (ih depth (Nat.lt_succ_self _)) rfl _ ht hvs
            exact ⟨.array hvs, hrest⟩
        · split at h
          · rename_i hbrace
            split at h
            · cases h
            · rename_i depth
              obtain ⟨⟨pairs, after⟩, hpairs, h⟩ := Option.bind_eq_some_iff.1 h
              obtain ⟨table, htable, heq⟩ := Option.bind_eq_some_iff.1 h
              cases heq
              have ht := ht.tail (by rw [hbrace]; rfl)
              have hpair := sound_inlinePair (ih depth (Nat.lt_succ_self _))
              obtain ⟨hpairs, hrest⟩ := sound_items hpair rfl _ ht hpairs
              exact ⟨isValid_foldlM_putAt hpairs (Value.isValid_empty _) htable, hrest⟩
          · obtain ⟨v, hv, heq⟩ := Option.map_eq_some_iff.1 h
            cases heq
            exact ⟨isValid_word hv, isValid_takeWord ht⟩

/-! ## Documents -/

/-- The document so far and the path of its last header are strings. -/
structure Progress.IsValid (p : Progress) : Prop where
  table : p.table.IsValid
  path : KeyIsValid p.path

theorem sound_headerKey {close : Text} (hclose : close.all isAscii = true) :
    Sound (headerKey? close) KeyIsValid := by
  intro t path rest ht h
  rw [headerKey?] at h
  obtain ⟨⟨key, after⟩, hkey, h⟩ := Option.bind_eq_some_iff.1 h
  obtain ⟨hvalid, hafter⟩ := sound_keyParts nesting ht hkey
  simp only at h
  split at h
  · rename_i hprefix
    cases h
    exact ⟨hvalid, isValid_drop_of_isPrefixOf hclose hafter hprefix⟩
  · cases h

/-- A header opens a table at its path. -/
theorem Progress.IsValid.header {p : Progress} (hp : p.IsValid)
    {opening : Text → Value → Option Value}
    (hopening : ∀ {key : Text} {v v' : Value}, key.IsValid → v.IsValid →
      opening key v = some v' → v'.IsValid)
    {path : List Text} (hpath : KeyIsValid path) {last : Text} (hlast : path.getLast? = some last)
    {table : Value}
    (htable : p.table.changeAt .implicit (opening last) path.dropLast = some table) :
    Progress.IsValid ⟨table, path⟩ := by
  have hkey := hpath last (List.mem_of_getLast? hlast)
  have hinit : KeyIsValid path.dropLast :=
    fun part hpart => hpath part (List.dropLast_subset _ hpart)
  exact ⟨Value.isValid_changeAt (fun _ _ => hopening hkey) hinit hp.table htable, hpath⟩

/-- What a line adds keeps the document valid. -/
theorem sound_statement {p : Progress} (hp : p.IsValid) :
    Sound (statement? p) Progress.IsValid := by
  intro t p' rest ht h
  rw [statement?] at h
  split at h
  · rename_i hbrackets
    obtain ⟨⟨path, after⟩, hpath, h⟩ := Option.bind_eq_some_iff.1 h
    obtain ⟨last, hlast, h⟩ := Option.bind_eq_some_iff.1 h
    obtain ⟨table, htable, heq⟩ := Option.bind_eq_some_iff.1 h
    cases heq
    have ht := isValid_drop_of_isPrefixOf (by decide) ht hbrackets
    obtain ⟨hpath, hrest⟩ := sound_headerKey (by decide) ht hpath
    exact ⟨hp.header Value.isValid_openItem hpath hlast htable, hrest⟩
  · split at h
    · rename_i hbracket
      obtain ⟨⟨path, after⟩, hpath, h⟩ := Option.bind_eq_some_iff.1 h
      obtain ⟨last, hlast, h⟩ := Option.bind_eq_some_iff.1 h
      obtain ⟨table, htable, heq⟩ := Option.bind_eq_some_iff.1 h
      cases heq
      have ht := isValid_drop_of_isPrefixOf (by decide) ht hbracket
      obtain ⟨hpath, hrest⟩ := sound_headerKey (by decide) ht hpath
      exact ⟨hp.header Value.isValid_openTable hpath hlast htable, hrest⟩
    · obtain ⟨⟨⟨key, v⟩, after⟩, hpair, h⟩ := Option.bind_eq_some_iff.1 h
      obtain ⟨table, htable, heq⟩ := Option.bind_eq_some_iff.1 h
      cases heq
      obtain ⟨⟨hkey, hv⟩, hrest⟩ := sound_pair (sound_value nesting) ht hpair
      exact ⟨⟨Value.isValid_changeAt (fun _ _ => Value.isValid_putAt hkey hv) hp.path hp.table
        htable, hp.path⟩, hrest⟩

theorem isValid_of_statements? {fuel : Nat} {p : Progress} (hp : p.IsValid) {t : Text}
    (ht : t.IsValid) {v : Value} (h : statements? fuel p t = some v) : v.IsValid := by
  induction fuel generalizing p t with
  | zero => cases h
  | succ fuel ih =>
    rw [statements?] at h
    obtain ⟨line, hline, h⟩ := Option.bind_eq_some_iff.1 h
    have hvalid := isValid_skipSpace ht hline
    split at h
    · cases h
      exact hp.table
    · obtain ⟨⟨p', after⟩, hstatement, h⟩ := Option.bind_eq_some_iff.1 h
      obtain ⟨hp', hafter⟩ := sound_statement hp hvalid hstatement
      obtain ⟨next, hnext, h⟩ := Option.bind_eq_some_iff.1 h
      exact ih hp' (isValid_endLine hafter hnext) h

/-- The document that a string writes holds strings. -/
theorem isValid_of_document? {t : Text} (ht : t.IsValid) {v : Value} (h : document? t = some v) :
    v.IsValid := by
  have hroot : Progress.IsValid ⟨.root, []⟩ := ⟨Value.isValid_empty _, nofun⟩
  refine isValid_of_statements? hroot ?_ h
  split
  · rename_i hmark
    obtain ⟨rest, rfl⟩ := List.isPrefixOf_iff_prefix.1 hmark
    exact Text.IsValid.of_append (Text.isValid_encode '\uFEFF') ht
  · exact ht

end Shortcode.Toml
