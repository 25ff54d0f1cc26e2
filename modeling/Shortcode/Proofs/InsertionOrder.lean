import Mathlib.Data.Finset.Card
import Mathlib.Data.List.Basic
import Shortcode.Proofs.ArgumentReading

/-!
# Insertion order

Arguments are made by inserting pairs one after the other, be they listed or read from a text.  What
is kept of the pairs is each key once, in the order in which the keys first came, with the value
that came last.  An insertion gives the value that was there before and leaves every other key
alone.

    (empty.insertEach pairs).2 = ofList pairs ∧ (ofList pairs).Keeps pairs       (keeps_insertEach)
-/

namespace Shortcode

namespace Arguments

/-! ## What is kept -/

/-- What arguments keep of the pairs that were inserted into them, first to last. -/
structure Keeps (args : Arguments) (pairs : List (Text × Text)) : Prop where
  nodup : args.keys.Nodup
  /-- A key stands in front of another one if it first came in front of it. -/
  ordered : args.keys.Pairwise fun a b =>
    (pairs.map (·.1)).idxOf a < (pairs.map (·.1)).idxOf b
  mem_keys_iff : ∀ key, key ∈ args.keys ↔ key ∈ pairs.map (·.1)
  /-- The value is that of the last pair with the key. -/
  get?_eq_some_iff : ∀ key value, args.get? key = some value ↔
    ∃ before after, pairs = before ++ (key, value) :: after ∧ key ∉ after.map (·.1)
  get?_eq_none_iff : ∀ key, args.get? key = none ↔ key ∉ pairs.map (·.1)
  /-- Going through the entries gives each key with its value. -/
  get?_of_mem : ∀ e ∈ args.entries, args.get? e.1 = some e.2
  size_eq : args.size = (pairs.map (·.1)).toFinset.card

/-- Inserts pairs from left to right; also what each insertion gave. -/
def insertEach (args : Arguments) : List (Text × Text) → List (Option Text) × Arguments
  | [] => ([], args)
  | p :: rest =>
    let (found, next) := args.getThenInsert? p.1 p.2
    let (more, last) := next.insertEach rest
    (found :: more, last)

/-! ## One insertion -/

section

variable (key value : Text) (es : List (Text × Text))

theorem lookup_put (other : Text) :
    (put key value es).lookup other = if other = key then some value else es.lookup other := by
  induction es with
  | nil =>
    rw [put, List.lookup_cons]
    split <;> simp_all
  | cons e rest ih =>
    obtain ⟨k, v⟩ := e
    rw [put]
    by_cases hk : k = key
    · rw [if_pos hk, List.lookup_cons, List.lookup_cons, hk]
      split <;> simp_all
    · rw [if_neg hk, List.lookup_cons, List.lookup_cons, ih]
      by_cases ho : other = k
      · simp [ho, hk]
      · simp [beq_false_of_ne ho]

/-- A key that is there keeps its place, and a new one comes last. -/
theorem map_fst_put : (put key value es).map (·.1) =
    if key ∈ es.map (·.1) then es.map (·.1) else es.map (·.1) ++ [key] := by
  induction es with
  | nil => simp [put]
  | cons e rest ih =>
    obtain ⟨k, v⟩ := e
    rw [put]
    by_cases hk : k = key
    · simp [hk]
    · rw [if_neg hk, List.map_cons, ih]
      have hmem : key ∈ ((k, v) :: rest).map (·.1) ↔ key ∈ rest.map (·.1) := by
        rw [List.map_cons, List.mem_cons, or_iff_right (Ne.symm hk)]
      simp only [hmem]
      split <;> rfl

theorem getThenPut?_eq : getThenPut? key value es = (es.lookup key, put key value es) := by
  induction es with
  | nil => rfl
  | cons e rest ih =>
    obtain ⟨k, v⟩ := e
    rw [getThenPut?, put, ih, List.lookup_cons]
    by_cases hk : k = key
    · simp [hk]
    · simp [hk, beq_false_of_ne (Ne.symm hk)]

end

section

variable (args : Arguments) (key value : Text)

theorem get?_insert (other : Text) :
    (args.insert key value).get? other = if other = key then some value else args.get? other :=
  lookup_put key value args.entries other

theorem keys_insert : (args.insert key value).keys =
    if key ∈ args.keys then args.keys else args.keys ++ [key] :=
  map_fst_put key value args.entries

theorem getThenInsert?_eq :
    args.getThenInsert? key value = (args.get? key, args.insert key value) := by
  rw [getThenInsert?, getThenPut?_eq]
  rfl

/-- An insertion leaves the place of every other key alone. -/
theorem idxOf?_insert {other : Text} (hother : other ≠ key) :
    (args.insert key value).keys.idxOf? other = args.keys.idxOf? other := by
  rw [keys_insert]
  split
  · rfl
  · have hkey : ([key] : List Text).idxOf? other = none := by
      rw [List.idxOf?_eq_none_iff]
      simpa using hother
    show (args.keys ++ [key]).findIdx? (· == other) = _
    rw [List.findIdx?_append, show [key].findIdx? (· == other) = none from hkey]
    exact Option.or_none

end

/-! ## Insertions in a row -/

theorem keeps_empty : empty.Keeps [] where
  nodup := .nil
  ordered := .nil
  mem_keys_iff _ := Iff.rfl
  get?_eq_some_iff key value := by
    refine iff_of_false (by simp [get?, empty]) ?_
    rintro ⟨before, after, hpairs, -⟩
    simp at hpairs
  get?_eq_none_iff key := by simp [get?, empty]
  get?_of_mem _ he := by cases he
  size_eq := rfl

/-- Among entries with distinct keys each is found by its key. -/
theorem get?_of_mem_entries {args : Arguments} (hnodup : args.keys.Nodup) {e : Text × Text}
    (he : e ∈ args.entries) : args.get? e.1 = some e.2 := by
  obtain ⟨es⟩ := args
  induction es with
  | nil => cases he
  | cons first rest ih =>
    obtain ⟨k, v⟩ := first
    obtain ⟨hk, hrest⟩ := List.nodup_cons.1 hnodup
    rw [get?, List.lookup_cons]
    rcases List.mem_cons.1 he with rfl | hmem
    · rw [beq_self_eq_true]
    · have hne : e.1 ≠ k := by
        rintro rfl
        exact hk (List.mem_map.2 ⟨e, hmem, rfl⟩)
      rw [beq_false_of_ne hne]
      exact ih hrest hmem

theorem size_eq_card {args : Arguments} {names : List Text} (hnodup : args.keys.Nodup)
    (hmem : ∀ key, key ∈ args.keys ↔ key ∈ names) : args.size = names.toFinset.card := by
  have hsame : args.keys.toFinset = names.toFinset := by
    ext key
    rw [List.mem_toFinset, List.mem_toFinset, hmem]
  rw [← hsame, List.toFinset_card_of_nodup hnodup, keys, List.length_map, size]

namespace Keeps

variable {args : Arguments} {pairs : List (Text × Text)} (h : args.Keeps pairs) (key value : Text)

include h

theorem mem_insert (other : Text) :
    other ∈ (args.insert key value).keys ↔ other ∈ (pairs ++ [(key, value)]).map (·.1) := by
  rw [keys_insert, List.map_append, List.mem_append, ← h.mem_keys_iff]
  split
  · rename_i hkey
    simp only [List.map_cons, List.map_nil, List.mem_singleton]
    refine ⟨.inl, fun hother => hother.elim id ?_⟩
    rintro rfl
    exact hkey
  · rw [List.mem_append]
    rfl

theorem nodup_insert : (args.insert key value).keys.Nodup := by
  rw [keys_insert]
  split
  · exact h.nodup
  · rename_i hkey
    exact h.nodup.append (List.nodup_singleton key) (List.disjoint_singleton.2 hkey)

/-- A key that is new comes behind all others in the pairs, too. -/
theorem ordered_insert : (args.insert key value).keys.Pairwise fun a b =>
    ((pairs ++ [(key, value)]).map (·.1)).idxOf a <
      ((pairs ++ [(key, value)]).map (·.1)).idxOf b := by
  have hold : ∀ {a}, a ∈ args.keys →
      ((pairs ++ [(key, value)]).map (·.1)).idxOf a = (pairs.map (·.1)).idxOf a := by
    intro a ha
    rw [List.map_append, List.idxOf_append_of_mem ((h.mem_keys_iff a).1 ha)]
  have hkeys : args.keys.Pairwise fun a b =>
      ((pairs ++ [(key, value)]).map (·.1)).idxOf a <
        ((pairs ++ [(key, value)]).map (·.1)).idxOf b :=
    h.ordered.imp_of_mem fun ha hb hlt => by rwa [hold ha, hold hb]
  rw [keys_insert]
  split
  · exact hkeys
  · rename_i hkey
    refine List.pairwise_append.2 ⟨hkeys, List.pairwise_singleton _ _, fun a ha b hb => ?_⟩
    obtain rfl := List.mem_singleton.1 hb
    have hnew : b ∉ pairs.map (·.1) := fun hb => hkey ((h.mem_keys_iff b).2 hb)
    rw [hold ha, List.map_append, List.idxOf_append_of_notMem hnew]
    have hlt := List.idxOf_lt_length_iff.2 ((h.mem_keys_iff a).1 ha)
    omega

theorem get?_insert_eq_some_iff (other found : Text) :
    (args.insert key value).get? other = some found ↔
      ∃ before after, pairs ++ [(key, value)] = before ++ (other, found) :: after ∧
        other ∉ after.map (·.1) := by
  rw [get?_insert]
  split
  · rename_i hother
    subst hother
    constructor
    · intro hfound
      cases hfound
      exact ⟨pairs, [], rfl, List.not_mem_nil⟩
    · rintro ⟨before, after, hpairs, hafter⟩
      -- the pair that was inserted last has the key, so nothing stands behind it
      rcases List.eq_nil_or_concat after with rfl | ⟨after, last, rfl⟩
      · cases (List.append_inj' hpairs rfl).2
        rfl
      · rw [List.concat_eq_append, ← List.cons_append, ← List.append_assoc] at hpairs
        cases (List.append_inj' hpairs rfl).2
        simp at hafter
  · rename_i hother
    rw [h.get?_eq_some_iff]
    constructor
    · rintro ⟨before, after, rfl, hafter⟩
      refine ⟨before, after ++ [(key, value)], by simp, ?_⟩
      simp only [List.map_append, List.mem_append, not_or]
      exact ⟨hafter, by simpa using hother⟩
    · rintro ⟨before, after, hpairs, hafter⟩
      rcases List.eq_nil_or_concat after with rfl | ⟨after, last, rfl⟩
      · cases (List.append_inj' hpairs rfl).2
        exact absurd rfl hother
      · rw [List.concat_eq_append, ← List.cons_append, ← List.append_assoc] at hpairs
        obtain ⟨rfl, -⟩ := List.append_inj' hpairs rfl
        refine ⟨before, after, rfl, fun hmem => hafter ?_⟩
        rw [List.concat_eq_append, List.map_append]
        exact List.mem_append_left _ hmem

theorem insert : (args.insert key value).Keeps (pairs ++ [(key, value)]) where
  nodup := h.nodup_insert key value
  ordered := h.ordered_insert key value
  mem_keys_iff := h.mem_insert key value
  get?_eq_some_iff := h.get?_insert_eq_some_iff key value
  get?_eq_none_iff other := by
    rw [get?_insert, List.map_append, List.mem_append, not_or]
    split
    · rename_i hother
      simp [hother]
    · rename_i hother
      rw [h.get?_eq_none_iff]
      simp [hother]
  get?_of_mem _ he := get?_of_mem_entries (h.nodup_insert key value) he
  size_eq := size_eq_card (h.nodup_insert key value) (h.mem_insert key value)

end Keeps

theorem ofList_concat (pairs : List (Text × Text)) (p : Text × Text) :
    ofList (pairs ++ [p]) = (ofList pairs).insert p.1 p.2 := by
  rw [ofList, List.foldl_append]
  rfl

theorem keeps_ofList (pairs : List (Text × Text)) : (ofList pairs).Keeps pairs := by
  induction pairs using List.reverseRecOn with
  | nil => exact keeps_empty
  | append_singleton pairs p ih =>
    rw [ofList_concat]
    exact ih.insert p.1 p.2

theorem insertEach_eq (args : Arguments) (pairs : List (Text × Text)) : args.insertEach pairs =
    (pairs.mapIdx fun i p =>
        ((pairs.take i).foldl (fun args p => args.insert p.1 p.2) args).get? p.1,
      pairs.foldl (fun args p => args.insert p.1 p.2) args) := by
  induction pairs generalizing args with
  | nil => rfl
  | cons p rest ih =>
    rw [insertEach, getThenInsert?_eq]
    dsimp only
    rw [ih, List.mapIdx_cons]
    rfl

/-- **Arguments are an insertion-ordered map.**  Inserting pairs one after the other, which is what
a list of pairs does and what reading a text does with the entries that stand in it, keeps each key
once, in the order of first insertions, with the value of its last one.  Each insertion gives what
the key had just before, and changes neither value nor place of another key. -/
theorem keeps_insertEach (pairs : List (Text × Text)) :
    (empty.insertEach pairs).2 = ofList pairs ∧ (ofList pairs).Keeps pairs ∧
    (empty.insertEach pairs).1 = pairs.mapIdx (fun i p => (ofList (pairs.take i)).get? p.1) ∧
    (∀ key value, (ofList pairs).getThenInsert? key value =
      ((ofList pairs).get? key, (ofList pairs).insert key value)) ∧
    (∀ key value other, other ≠ key →
      ((ofList pairs).insert key value).get? other = (ofList pairs).get? other ∧
      ((ofList pairs).insert key value).keys.idxOf? other = (ofList pairs).keys.idxOf? other) ∧
    ∀ stop c args d, read stop c = .ok (args, d) →
      ∃ raw items, c.rest = raw ++ d.rest ∧ Listing raw items ∧
        args = ofList (items.filterMap Item.entry?) ∧ args.Keeps (items.filterMap Item.entry?) := by
  have heach := insertEach_eq empty pairs
  refine ⟨congrArg Prod.snd heach, keeps_ofList pairs, congrArg Prod.fst heach,
    fun key value => getThenInsert?_eq _ key value, fun key value other hother => ⟨?_, ?_⟩,
    fun stop c args d hread => ?_⟩
  · rw [get?_insert, if_neg hother]
  · exact idxOf?_insert _ key value hother
  · obtain ⟨raw, items, hraw, -, -, hlist, -, rfl⟩ := readInto_eq_ok_iff.1 hread
    exact ⟨raw, items, hraw, hlist, rfl, keeps_ofList _⟩

example :
    let a := Text.ofString "a"
    let b := Text.ofString "b"
    empty.insertEach [(a, [1]), (b, [2]), (a, [3])] =
      ([none, none, some [1]], ⟨[(a, [3]), (b, [2])]⟩) := by
  decide +kernel

end Arguments

end Shortcode
