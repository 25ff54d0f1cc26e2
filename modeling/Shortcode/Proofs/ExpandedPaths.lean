import Shortcode.PathExpansion
import Shortcode.Proofs.CursorReach
import Shortcode.Proofs.ValidText

/-!
# Expanded paths

The expansion of a path that is a string is a string, as the values of the variables are.  A path
without a dollar that starts with no tilde stands for itself.

    path.IsValid → (expand env path).IsValid                                  (isValid_expand)
    dollar ∉ path → path.head? ≠ some tilde → expand env path = path          (expand_of_plain)
-/

namespace Shortcode

open Byte

namespace PathExpansion

variable {env : Environment} {path t s : Text}

/-! ## Strings -/

theorem isValid_default {body text : Text} (hbody : body.IsValid)
    (h : (nameAndDefault body).2 = some text) : text.IsValid := by
  have hparts := Text.takeUntil_append_dropUntil (defaultMark.isPrefixOf ·) body
  have hmark := fun h => Text.stop_dropUntil (defaultMark.isPrefixOf ·) (t := body) h
  rw [nameAndDefault] at h
  generalize body.takeUntil (defaultMark.isPrefixOf ·) = name at h hparts
  generalize body.dropUntil (defaultMark.isPrefixOf ·) = marked at h hparts hmark
  split at h
  · cases h
  · rename_i hempty
    cases h
    rw [Bool.or_eq_true, not_or, List.isEmpty_iff, List.isEmpty_iff] at hempty
    obtain ⟨rest, rfl⟩ := List.isPrefixOf_iff_prefix.1 (hmark hempty.2)
    have hascii : ∀ b ∈ defaultMark, isAscii b = true := List.all_eq_true.1 (by decide)
    rw [← hparts] at hbody
    rw [List.drop_left]
    exact (hbody.cut (by rintro b ⟨⟩; rfl)).2.drop_ascii hascii

theorem isValid_braced {body value : Text} (hbody : body.IsValid)
    (h : braced? env body = some value) : value.IsValid := by
  rw [braced?] at h
  cases hget : env.get? (nameAndDefault body).1 with
  | some v =>
    rw [hget] at h
    cases h
    exact v.2
  | none =>
    rw [hget] at h
    exact isValid_default hbody h

/-- The bytes in front of what is left belong to the statement. -/
theorem isValid_expandVariables {a : Text} (ht : Text.IsValid (a ++ t))
    (h : expandVariables? env t = some s) : Text.IsValid (a ++ s) := by
  fun_induction expandVariables? env t generalizing a s with
  | case1 =>
    cases h
    exact ht
  | case2 =>
    cases h
    exact ht
  | case3 after _ ih =>
    obtain ⟨s, hs, rfl⟩ := Option.map_eq_some_iff.1 h
    rw [← List.append_assoc]
    exact ih (by rwa [List.append_assoc]) hs
  | case4 => cases h
  | case5 after brace behind hbehind _ value hvalue ih =>
    obtain ⟨s, hs, rfl⟩ := Option.map_eq_some_iff.1 h
    obtain ⟨ha, hinside⟩ := ht.cut_around rfl
    have hafter : Text.IsValid after := hinside.tail rfl
    obtain ⟨hbody, hrest⟩ := hafter.cut_run (isAscii_of_bne_eq_false (q := rightBrace) rfl)
    have hbrace := List.head?_dropWhile_not (· != rightBrace) after
    rw [hbehind] at hrest hbrace
    have hvalid := hrest.tail (isAscii_of_bne_eq_false (q := rightBrace) rfl brace hbrace)
    rw [← List.append_assoc]
    exact ih ((ha.append (isValid_braced hbody hvalue)).append hvalid) hs
  | case6 after _ ih =>
    obtain ⟨s, hs, rfl⟩ := Option.map_eq_some_iff.1 h
    obtain ⟨ha, hdollar⟩ := ht.cut_around rfl
    rw [List.append_cons]
    exact ih ((ha.append (Text.isValid_singleton rfl)).append (hdollar.tail rfl)) hs
  | case7 c after _ _ _ _ ih =>
    obtain ⟨s, hs, rfl⟩ := Option.map_eq_some_iff.1 h
    rw [List.append_cons] at ht ⊢
    exact ih ht hs
  | case8 => cases h
  | case9 c after _ _ _ _ value _ ih =>
    obtain ⟨s, hs, rfl⟩ := Option.map_eq_some_iff.1 h
    obtain ⟨ha, hname⟩ := ht.cut_around rfl
    have hrest := hname.splitWhile isNameCharacter
    rw [← List.append_assoc]
    exact ih ((ha.append value.2).append hrest) hs
  | case10 b t _ ih =>
    obtain ⟨s, hs, rfl⟩ := Option.map_eq_some_iff.1 h
    rw [List.append_cons] at ht ⊢
    exact ih ht hs

theorem isValid_tilde (ht : t.IsValid) : (tilde env t).IsValid := by
  rw [tilde.eq_def]
  split
  · rename_i b rest home _
    split
    · rename_i hb
      rw [Bool.and_eq_true, decide_eq_true_iff] at hb
      exact home.2.append (ht.tail (by rw [hb.1]; rfl))
    · exact ht
  · exact ht

/-- **The expansion of a string is a string.** -/
theorem isValid_expand (env : Environment) (hpath : path.IsValid) :
    (expand env path).IsValid := by
  rw [expand, expand?]
  cases hs : expandVariables? env path with
  | none => exact hpath
  | some s =>
    have hvalid : s.IsValid := isValid_expandVariables (a := []) hpath hs
    rw [Option.map_some, Option.getD_some]
    split
    · exact isValid_tilde hvalid
    · exact hvalid

/-! ## Paths that stand for themselves -/

theorem expandVariables?_of_not_mem (h : dollar ∉ t) : expandVariables? env t = some t := by
  induction t with
  | nil => rw [expandVariables?.eq_def]
  | cons b t ih =>
    rw [List.mem_cons, not_or] at h
    rw [expandVariables?.eq_def]
    simp only [if_neg (Ne.symm h.1), ih h.2]
    rfl

/-- A path without variables that does not start at the home directory. -/
theorem expand_of_plain (hdollar : dollar ∉ path) (htilde : path.head? ≠ some Byte.tilde) :
    expand env path = path := by
  have hhead : (path.head? == some Byte.tilde) = false := by simpa using htilde
  rw [expand, expand?, expandVariables?_of_not_mem hdollar, hhead]
  rfl

end PathExpansion

end Shortcode
