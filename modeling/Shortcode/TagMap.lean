import Shortcode.Text.Basic

/-!
# Maps from tag names

A `TagMap` keeps its entries sorted by the bytes of their names, so two maps with the same entries
are equal and the names are listed in order.

    (m.insert k v).get? k = some v,   (m.erase k).get? k = none
-/

namespace Shortcode

/-- Values by name, sorted by name. -/
structure TagMap (α : Type) where
  entries : List (Text × α)
  sorted : entries.Pairwise fun a b => a.1 < b.1

namespace TagMap

variable {α : Type}

/-! ## Algorithm on sorted entries -/

/-- Puts the entry where its name belongs, in place of one of the same name. -/
def putEntry (name : Text) (value : α) : List (Text × α) → List (Text × α)
  | [] => [(name, value)]
  | e :: rest =>
    if name < e.1 then (name, value) :: e :: rest
    else if e.1 < name then e :: putEntry name value rest
    else (name, value) :: rest

theorem mem_putEntry {name : Text} {value : α} {es : List (Text × α)} {x : Text × α}
    (h : x ∈ putEntry name value es) : x = (name, value) ∨ x ∈ es := by
  induction es with
  | nil => exact .inl (by simpa [putEntry] using h)
  | cons e rest ih =>
    rw [putEntry] at h
    split at h
    · simpa using h
    · split at h
      · rcases List.mem_cons.1 h with rfl | h
        · exact .inr (by simp)
        · exact (ih h).imp_right (List.mem_cons_of_mem _)
      · rcases List.mem_cons.1 h with rfl | h
        · exact .inl rfl
        · exact .inr (List.mem_cons_of_mem _ h)

/-- Names that are in neither order are equal. -/
theorem eq_of_not_lt {a b : Text} (h : ¬a < b) (h' : ¬b < a) : a = b :=
  List.le_antisymm (List.not_lt.1 h') (List.not_lt.1 h)

theorem sorted_putEntry (name : Text) (value : α) {es : List (Text × α)}
    (h : es.Pairwise fun a b => a.1 < b.1) :
    (putEntry name value es).Pairwise fun a b => a.1 < b.1 := by
  induction es with
  | nil => simp [putEntry]
  | cons e rest ih =>
    obtain ⟨he, hr⟩ := List.pairwise_cons.1 h
    rw [putEntry]
    split
    · rename_i hlt
      refine List.pairwise_cons.2 ⟨fun x hx => ?_, h⟩
      rcases List.mem_cons.1 hx with rfl | hx
      · exact hlt
      · exact List.lt_trans hlt (he x hx)
    · split
      · rename_i hgt
        refine List.pairwise_cons.2 ⟨fun x hx => ?_, ih hr⟩
        rcases mem_putEntry hx with rfl | hx
        · exact hgt
        · exact he x hx
      · rename_i h1 h2
        refine List.pairwise_cons.2 ⟨fun x hx => ?_, hr⟩
        rw [eq_of_not_lt h1 h2]
        exact he x hx

/-! ## Operations -/

def empty : TagMap α := ⟨[], .nil⟩

instance : Inhabited (TagMap α) := ⟨empty⟩

def get? (m : TagMap α) (name : Text) : Option α := m.entries.lookup name

def contains (m : TagMap α) (name : Text) : Bool := (m.get? name).isSome

def insert (m : TagMap α) (name : Text) (value : α) : TagMap α :=
  ⟨putEntry name value m.entries, sorted_putEntry name value m.sorted⟩

def erase (m : TagMap α) (name : Text) : TagMap α :=
  ⟨m.entries.filter (·.1 != name), m.sorted.filter _⟩

/-- The names in the order of their bytes. -/
def names (m : TagMap α) : List Text := m.entries.map (·.1)

def isEmpty (m : TagMap α) : Bool := m.entries.isEmpty

/-- The map with each value changed by `f`. -/
def mapValues {β : Type} (m : TagMap α) (f : Text → α → β) : TagMap β :=
  ⟨m.entries.map fun e => (e.1, f e.1 e.2), List.pairwise_map.2 m.sorted⟩

theorem names_mapValues {β : Type} (m : TagMap α) (f : Text → α → β) :
    (m.mapValues f).names = m.names := by
  rw [names, mapValues, List.map_map]
  rfl

/-- Inserts the entries from left to right. -/
def ofList (es : List (Text × α)) : TagMap α := es.foldl (fun m e => m.insert e.1 e.2) empty

/-! ## Lemmas -/

theorem lookup_putEntry_self (name : Text) (value : α) (es : List (Text × α)) :
    (putEntry name value es).lookup name = some value := by
  induction es with
  | nil => simp [putEntry]
  | cons e rest ih =>
    rw [putEntry]
    split
    · simp
    · split
      · rename_i hgt
        have hne : (name == e.1) = false := by
          simp only [beq_eq_false_iff_ne, ne_eq]
          rintro rfl
          exact List.lt_irrefl _ hgt
        obtain ⟨k, v⟩ := e
        simp only [List.lookup_cons]
        simp only at hne
        rw [hne]
        exact ih
      · simp

theorem get?_insert_self (m : TagMap α) (name : Text) (value : α) :
    (m.insert name value).get? name = some value :=
  lookup_putEntry_self name value m.entries

theorem lookup_putEntry_of_ne {name other : Text} (value : α) (es : List (Text × α))
    (h : other ≠ name) : (putEntry name value es).lookup other = es.lookup other := by
  have hb : (other == name) = false := by simpa using h
  induction es with
  | nil => simp [putEntry, List.lookup_cons, hb]
  | cons e rest ih =>
    obtain ⟨k, v⟩ := e
    rw [putEntry]
    split
    · simp [List.lookup_cons, hb]
    · split
      · simp only [List.lookup_cons, ih]
      · rename_i h1 h2
        have : name = k := eq_of_not_lt h1 h2
        subst this
        simp [List.lookup_cons, hb]

theorem get?_insert_of_ne (m : TagMap α) {name other : Text} (value : α) (h : other ≠ name) :
    (m.insert name value).get? other = m.get? other :=
  lookup_putEntry_of_ne value m.entries h

theorem get?_erase_self (m : TagMap α) (name : Text) : (m.erase name).get? name = none := by
  refine List.lookup_eq_none_iff.2 fun e he => ?_
  have := (List.mem_filter.1 he).2
  simp only [bne_iff_ne, ne_eq] at this
  simpa using fun h : name = e.1 => this h.symm

end TagMap

end Shortcode
