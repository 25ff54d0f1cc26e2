import Shortcode.Markup.Document

/-!
# Paths of elements

The elements around an element have smaller numbers, and only the links to parents count for them.
The stack of open elements is a *path*: each of its elements stands in those below it.

    IsPath d (id :: outer) → d.ancestors id = outer
-/

namespace Shortcode

namespace Document

/-! ## Ancestors -/

theorem lt_of_mem_ancestors {d : Document} {id a : ElementId} (h : a ∈ d.ancestors id) :
    a < id := by
  induction id using Nat.strongRecOn with
  | _ id ih =>
    rw [ancestors] at h
    split at h
    · cases h
    · rename_i parent _
      split at h
      · rename_i hlt
        rcases List.mem_cons.1 h with rfl | h
        · exact hlt
        · exact Nat.lt_trans (ih parent hlt h) hlt
      · cases h

/-- The ancestors of an ancestor are the ancestors above it. -/
theorem ancestors_of_cons {d : Document} {id a : ElementId} {rest : List ElementId}
    (h : d.ancestors id = a :: rest) : d.ancestors a = rest := by
  rw [ancestors] at h
  split at h
  · cases h
  · split at h
    · cases h
      rfl
    · cases h

theorem ancestors_congr {d d' : Document} {id : ElementId}
    (h : ∀ i ≤ id, (d.element? i).bind (·.parent) = (d'.element? i).bind (·.parent)) :
    d.ancestors id = d'.ancestors id := by
  induction id using Nat.strongRecOn with
  | _ id ih =>
    rw [ancestors, ancestors, h id (Nat.le_refl _)]
    split
    · rfl
    · rename_i parent _
      split
      · rename_i hlt
        rw [ih parent hlt fun i hi => h i (Nat.le_trans hi (Nat.le_of_lt hlt))]
      · rfl

theorem ancestors_of_parent {d : Document} {id parent : ElementId} {e : Element}
    (he : d.element? id = some e) (hp : e.parent = some parent) (hlt : parent < id) :
    d.ancestors id = parent :: d.ancestors parent := by
  rw [ancestors, he, Option.bind_some, hp]
  exact if_pos hlt

theorem ancestors_of_root {d : Document} {id : ElementId} {e : Element}
    (he : d.element? id = some e) (hp : e.parent = none) : d.ancestors id = [] := by
  rw [ancestors, he, Option.bind_some, hp]

/-! ## Paths -/

/-- Each element of the list stands in the ones after it and in no others. -/
def IsPath (d : Document) : List ElementId → Prop
  | [] => True
  | id :: outer => d.ancestors id = outer

theorem IsPath.tail {d : Document} {id : ElementId} {outer : List ElementId}
    (h : d.IsPath (id :: outer)) : d.IsPath outer := by
  cases outer with
  | nil => trivial
  | cons a rest => exact ancestors_of_cons h

theorem IsPath.pairwise {d : Document} {ids : List ElementId} (h : d.IsPath ids) :
    ids.Pairwise (· > ·) := by
  induction ids with
  | nil => exact .nil
  | cons id outer ih =>
    refine .cons (fun a ha => ?_) (ih h.tail)
    rw [← show d.ancestors id = outer from h] at ha
    exact lt_of_mem_ancestors ha

theorem isPath_ancestors (d : Document) (id : ElementId) : d.IsPath (id :: d.ancestors id) := rfl

theorem IsPath.congr {d d' : Document} {ids : List ElementId} (h : d.IsPath ids)
    (heq : ∀ i ∈ ids, d.ancestors i = d'.ancestors i) : d'.IsPath ids := by
  cases ids with
  | nil => trivial
  | cons id outer => exact (heq id List.mem_cons_self).symm.trans h

end Document

end Shortcode
