import Shortcode.World

/-!
# What registering changes

A handle gives access to one table of handlers, and a handle of a table that does not exist gives
access to none.  Registering and unregistering a tag change what is found for that tag in that
table, and nothing else.

    (w.register r tag handler).handler? r' other =
      if r.id = r'.id ∧ r.id < w.tables.length ∧ other = tag then some handler
      else w.handler? r' other                                              (handler?_register_eq)
-/

namespace Shortcode

variable {σ α : Type}

namespace TagMap

theorem get?_insert (m : TagMap α) (name other : Text) (value : α) :
    (m.insert name value).get? other = if other = name then some value else m.get? other := by
  split
  · rename_i h
    rw [h, get?_insert_self]
  · exact get?_insert_of_ne m value ‹_›

theorem get?_erase_of_ne (m : TagMap α) {name other : Text} (h : other ≠ name) :
    (m.erase name).get? other = m.get? other := by
  unfold get? erase
  dsimp only
  induction m.entries with
  | nil => rfl
  | cons e rest ih =>
    obtain ⟨k, v⟩ := e
    by_cases hk : k = name
    · have hother : (other == k) = false := by rwa [hk, beq_eq_false_iff_ne]
      rw [List.filter_cons_of_neg (by simpa using hk), List.lookup_cons, hother, ih]
    · rw [List.filter_cons_of_pos (by simpa using hk), List.lookup_cons, List.lookup_cons, ih]

theorem get?_erase (m : TagMap α) (name other : Text) :
    (m.erase name).get? other = if other = name then none else m.get? other := by
  split
  · rename_i h
    rw [h, get?_erase_self]
  · exact get?_erase_of_ne m ‹_›

theorem mem_names_iff (m : TagMap α) (name : Text) :
    name ∈ m.names ↔ (m.get? name).isSome = true := by
  rw [get?, names, ← Option.ne_none_iff_isSome, ne_eq, List.lookup_eq_none_iff, List.mem_map]
  constructor
  · rintro ⟨e, he, rfl⟩ h
    simpa using h e he
  · intro h
    refine Classical.byContradiction fun hnone => h fun e he => bne_iff_ne.2 fun hname => ?_
    exact hnone ⟨e, he, hname.symm⟩

/-- What is found among entries in order stands there. -/
theorem mem_iff_lookup {es : List (Text × α)} (hes : es.Pairwise fun a b => a.1 < b.1)
    (e : Text × α) : e ∈ es ↔ es.lookup e.1 = some e.2 := by
  induction es with
  | nil => simp
  | cons f es ih =>
    obtain ⟨hf, hrest⟩ := List.pairwise_cons.1 hes
    rw [List.lookup_cons, List.mem_cons]
    by_cases hname : e.1 = f.1
    · -- no later entry has the name of the first one
      have hnot : e ∉ es := fun he => List.lt_irrefl _ (hname ▸ hf e he)
      rw [hname, beq_self_eq_true]
      constructor
      · rintro (rfl | he)
        · rfl
        · exact absurd he hnot
      · intro h
        exact .inl (Prod.ext hname (Option.some.inj h).symm)
    · rw [beq_false_of_ne hname, ih hrest]
      exact or_iff_right fun h => hname (congrArg Prod.fst h)

/-- Entries in order are told by what is found among them. -/
theorem eq_of_lookup {es fs : List (Text × α)} (hes : es.Pairwise fun a b => a.1 < b.1)
    (hfs : fs.Pairwise fun a b => a.1 < b.1) (h : ∀ name, es.lookup name = fs.lookup name) :
    es = fs := by
  have hnodup : ∀ {es : List (Text × α)}, (es.Pairwise fun a b => a.1 < b.1) → es.Nodup := by
    intro es hes
    refine hes.imp ?_
    rintro a _ hlt rfl
    exact List.lt_irrefl _ hlt
  have hperm : es.Perm fs :=
    (List.perm_ext_iff_of_nodup (hnodup hes) (hnodup hfs)).2 fun e => by
      rw [mem_iff_lookup hes, mem_iff_lookup hfs, h]
  exact hperm.eq_of_pairwise (fun _ _ _ _ hab hba => absurd hba (List.lt_asymm hab)) hes hfs

/-- Maps in which the same is found are equal. -/
theorem eq_of_get? {m m' : TagMap α} (h : ∀ name, m.get? name = m'.get? name) : m = m' := by
  have hentries := eq_of_lookup m.sorted m'.sorted h
  obtain ⟨entries, sorted⟩ := m
  cases hentries
  rfl

end TagMap

namespace World

variable (w : World σ) (r r' : Registry)

theorem handlers_modifyHandlers (f : TagMap (Handler σ) → TagMap (Handler σ)) :
    (w.modifyHandlers r f).handlers r' =
      if r.id = r'.id ∧ r.id < w.tables.length then f (w.handlers r') else w.handlers r' := by
  rw [handlers, handlers, modifyHandlers, List.getElem?_modify]
  by_cases hid : r.id = r'.id
  · by_cases hlt : r.id < w.tables.length
    · have hlt' : r'.id < w.tables.length := hid ▸ hlt
      rw [if_pos ⟨hid, hlt⟩, List.getElem?_eq_getElem hlt']
      simp [hid]
    · have hle : w.tables.length ≤ r'.id := hid ▸ Nat.not_lt.1 hlt
      rw [if_neg fun h => hlt h.2, List.getElem?_eq_none hle]
      rfl
  · rw [if_neg fun h => hid h.1]
    simp [hid]

theorem handler?_register_eq (tag other : Text) (handler : Handler σ) :
    (w.register r tag handler).handler? r' other =
      if r.id = r'.id ∧ r.id < w.tables.length ∧ other = tag then some handler
      else w.handler? r' other := by
  rw [handler?, register, handlers_modifyHandlers]
  show TagMap.get? (if r.id = r'.id ∧ r.id < w.tables.length then _ else w.handlers r') other = _
  by_cases hin : r.id = r'.id ∧ r.id < w.tables.length
  · rw [if_pos hin, TagMap.get?_insert]
    simp only [hin.1, hin.1 ▸ hin.2, true_and]
    rfl
  · rw [if_neg hin, if_neg fun h => hin ⟨h.1, h.2.1⟩]
    rfl

theorem handler?_unregister_eq (tag other : Text) :
    (w.unregister r tag).2.handler? r' other =
      if r.id = r'.id ∧ r.id < w.tables.length ∧ other = tag then none
      else w.handler? r' other := by
  rw [handler?, unregister, handlers_modifyHandlers]
  by_cases hin : r.id = r'.id ∧ r.id < w.tables.length
  · rw [if_pos hin, TagMap.get?_erase]
    simp only [hin.1, hin.1 ▸ hin.2, true_and]
    rfl
  · rw [if_neg hin, if_neg fun h => hin ⟨h.1, h.2.1⟩]
    rfl

/-- A new registry has no handlers, and a handle of no table has none either. -/
theorem handler?_newRegistry_eq (name tag : Text) :
    (w.newRegistry name).2.handler? r tag = w.handler? r tag := by
  rw [handler?, handler?, handlers, handlers]
  show TagMap.get? (((w.tables ++ [TagMap.empty])[r.id]?).getD TagMap.empty) tag = _
  by_cases hlt : r.id < w.tables.length
  · rw [List.getElem?_append_left hlt]
  · have hle : w.tables.length ≤ r.id := Nat.not_lt.1 hlt
    rw [List.getElem?_append_right hle, List.getElem?_eq_none hle]
    cases r.id - w.tables.length <;> rfl

theorem handler?_newRegistry (name tag : Text) :
    (w.newRegistry name).2.handler? (w.newRegistry name).1 tag = none := by
  rw [handler?_newRegistry_eq, handler?, handlers]
  show TagMap.get? ((w.tables[w.tables.length]?).getD TagMap.empty) tag = none
  rw [List.getElem?_eq_none (Nat.le_refl _)]
  rfl

variable {w r r'}

/-- Registering leaves the handlers of other tags as they are. -/
theorem handler?_register_of_ne {tag other : Text} (h : other ≠ tag) (handler : Handler σ) :
    (w.register r tag handler).handler? r' other = w.handler? r' other := by
  rw [handler?_register_eq, if_neg fun hin => h hin.2.2]

/-- So does unregistering. -/
theorem handler?_unregister_of_ne {tag other : Text} (h : other ≠ tag) :
    (w.unregister r tag).2.handler? r' other = w.handler? r' other := by
  rw [handler?_unregister_eq, if_neg fun hin => h hin.2.2]

/-- A handler that is found after another one was registered is that one or was there before. -/
theorem handler?_register {tag other : Text} {handler found : Handler σ}
    (h : (w.register r tag handler).handler? r' other = some found) :
    found = handler ∨ w.handler? r' other = some found := by
  rw [handler?_register_eq] at h
  split at h
  · exact .inl (Option.some.inj h).symm
  · exact .inr h

end World

end Shortcode
