import Shortcode.Proofs.BracketOrder
import Shortcode.Tag.Pairing

/-!
# How tags are paired

`Pairing pairs bs os` tells step by step how the occurrences `os` come from the bracket tags `bs`: a
tag stands alone, or it takes a later tag as its close tag and leaves out those between.

    Pairing pairs bs (Occurrence.ofBrackets pairs bs)                  (pairing_ofBrackets)
-/

namespace Shortcode

namespace Bracket

/-- An open tag that may take content. -/
def IsOpener (b : Bracket) (arguments : Arguments) : Prop :=
  b.kind = .opening arguments false ∧ b.isEscape = false

/-- Why `b`, with `rest` behind it, stands alone in the given form. -/
inductive Alone (pairs : Text → Bool) (b : Bracket) (rest : List Bracket) :
    Arguments → Form → Prop
  | strayClose : b.kind = .closing → Alone pairs b rest .empty .strayClose
  | selfClosing {arguments : Arguments} : b.kind = .opening arguments true →
      Alone pairs b rest arguments .selfClosing
  | escape {arguments : Arguments} : b.kind = .opening arguments false → b.isEscape = true →
      Alone pairs b rest arguments .opening
  | unclosed {arguments : Arguments} : b.IsOpener arguments →
      (∀ c ∈ rest, c.closes b = false) → Alone pairs b rest arguments .opening
  | refused {arguments : Arguments} : b.IsOpener arguments → pairs b.name = false →
      Alone pairs b rest arguments .opening

theorem Alone.form_ne {pairs : Text → Bool} {b : Bracket} {rest : List Bracket}
    {arguments : Arguments} {form : Form} (h : b.Alone pairs rest arguments form) :
    form ≠ .enclosing := by
  cases h <;> exact nofun

end Bracket

namespace Occurrence

/-- How occurrences come from bracket tags. -/
inductive Pairing (pairs : Text → Bool) : List Bracket → List Occurrence → Prop
  | nil : Pairing pairs [] []
  | single {b : Bracket} {rest : List Bracket} {os : List Occurrence} {arguments : Arguments}
      {form : Form} : b.Alone pairs rest arguments form → Pairing pairs rest os →
      Pairing pairs (b :: rest) (alone b arguments form :: os)
  | pair {b close : Bracket} {mid after : List Bracket} {os : List Occurrence}
      {arguments : Arguments} : b.IsOpener arguments → (∀ c ∈ mid, c.closes b = false) →
      close.closes b = true → (b.lead && close.trail || pairs b.name) = true →
      Pairing pairs after os →
      Pairing pairs (b :: (mid ++ close :: after)) (between b close arguments :: os)

theorem findClose?_eq_none {opener : Bracket} {bs : List Bracket}
    (h : findClose? opener bs = none) : ∀ c ∈ bs, c.closes opener = false := by
  induction bs with
  | nil => exact fun c hc => absurd hc List.not_mem_nil
  | cons b rest ih =>
    rw [findClose?] at h
    split at h
    · cases h
    · rename_i hb
      intro c hc
      rcases List.mem_cons.1 hc with rfl | hc
      · exact Bool.eq_false_iff.2 hb
      · exact ih h c hc

theorem findClose?_eq_some {opener close : Bracket} {bs after : List Bracket}
    (h : findClose? opener bs = some (close, after)) :
    ∃ mid, bs = mid ++ close :: after ∧ (∀ c ∈ mid, c.closes opener = false) ∧
      close.closes opener = true := by
  induction bs with
  | nil => cases h
  | cons b rest ih =>
    rw [findClose?] at h
    split at h
    · rename_i hb
      cases h
      exact ⟨[], rfl, fun c hc => absurd hc List.not_mem_nil, hb⟩
    · rename_i hb
      obtain ⟨mid, rfl, h1, h2⟩ := ih h
      refine ⟨b :: mid, rfl, ?_, h2⟩
      intro c hc
      rcases List.mem_cons.1 hc with rfl | hc
      · exact Bool.eq_false_iff.2 hb
      · exact h1 c hc

theorem pairing_ofBrackets (pairs : Text → Bool) (bs : List Bracket) :
    Pairing pairs bs (ofBrackets pairs bs) := by
  induction hn : bs.length using Nat.strongRecOn generalizing bs with
  | _ n ih =>
    subst hn
    cases bs with
    | nil =>
      rw [ofBrackets]
      exact .nil
    | cons b rest =>
      have hrest : Pairing pairs rest (ofBrackets pairs rest) :=
        ih _ (Nat.lt_succ_self _) rest rfl
      rw [ofBrackets]
      split
      · rename_i hk
        exact .single (.strayClose hk) hrest
      · rename_i arguments selfClosing hk
        split
        · rename_i hs
          rw [hs] at hk
          exact .single (.selfClosing hk) hrest
        · rename_i hs
          rw [Bool.eq_false_iff.2 hs] at hk
          split
          · rename_i hesc
            exact .single (.escape hk hesc) hrest
          · rename_i hesc
            have hopener : b.IsOpener arguments := ⟨hk, Bool.eq_false_iff.2 hesc⟩
            split
            · rename_i hfind
              exact .single (.unclosed hopener (findClose?_eq_none hfind)) hrest
            · rename_i close after hfind
              obtain ⟨mid, hmid, h1, h2⟩ := findClose?_eq_some hfind
              split
              · rename_i hpairs
                have hlt := Nat.lt_succ_of_lt (length_findClose_lt hfind)
                have hstep := Pairing.pair hopener h1 h2 hpairs (ih _ hlt after rfl)
                rwa [← hmid] at hstep
              · rename_i hpairs
                rw [Bool.or_eq_true, not_or] at hpairs
                exact .single (.refused hopener (Bool.eq_false_iff.2 hpairs.2)) hrest

/-! ## Where an occurrence comes from -/

/-- The tags of `bs` that an occurrence is made of. -/
inductive Origin (pairs : Text → Bool) (bs : List Bracket) : Occurrence → Prop
  | single {pre rest : List Bracket} {b : Bracket} {arguments : Arguments} {form : Form} :
      bs = pre ++ b :: rest → b.Alone pairs rest arguments form →
      Origin pairs bs (alone b arguments form)
  | pair {pre mid after : List Bracket} {b close : Bracket} {arguments : Arguments} :
      bs = pre ++ b :: (mid ++ close :: after) → b.IsOpener arguments →
      (∀ c ∈ mid, c.closes b = false) → close.closes b = true →
      (b.lead && close.trail || pairs b.name) = true → Origin pairs bs (between b close arguments)

theorem Origin.append {pairs : Text → Bool} {bs : List Bracket} {o : Occurrence}
    (h : Origin pairs bs o) (front : List Bracket) : Origin pairs (front ++ bs) o := by
  cases h with
  | single he halone => exact .single (by rw [he, List.append_assoc]) halone
  | pair he h1 h2 h3 h4 => exact .pair (by rw [he, List.append_assoc]) h1 h2 h3 h4

theorem Pairing.origin {pairs : Text → Bool} {bs : List Bracket} {os : List Occurrence}
    (h : Pairing pairs bs os) {o : Occurrence} (ho : o ∈ os) : Origin pairs bs o := by
  induction h with
  | nil => cases ho
  | @single b rest os arguments form halone _ ih =>
    rcases List.mem_cons.1 ho with rfl | ho
    · exact .single (List.nil_append _).symm halone
    · exact (ih ho).append [b]
  | @pair b close mid after os arguments h1 h2 h3 h4 _ ih =>
    rcases List.mem_cons.1 ho with rfl | ho
    · exact .pair (List.nil_append _).symm h1 h2 h3 h4
    · have := (ih ho).append (b :: (mid ++ [close]))
      rwa [List.cons_append, List.append_assoc] at this

/-! ## Spans -/

theorem alone_span {b : Bracket} (hb : b.Proper) (arguments : Arguments) (form : Form) :
    b.outer.start ≤ (alone b arguments form).span.start ∧
      (alone b arguments form).span.start < (alone b arguments form).span.stop ∧
      (alone b arguments form).span.stop ≤ b.outer.stop := by
  have h1 := hb.start_lt_stop
  have h2 := hb.lead_le
  unfold alone widen Bracket.outer Bracket.isEscape
  cases b.lead <;> cases b.trail <;> simp <;> omega

theorem between_span {b close : Bracket} (hb : b.Proper) (hclose : close.Proper)
    (h : b.outer.stop ≤ close.outer.start) (arguments : Arguments) :
    b.outer.start ≤ (between b close arguments).span.start ∧
      (between b close arguments).span.start < (between b close arguments).span.stop ∧
      (between b close arguments).span.stop ≤ close.outer.stop := by
  have h1 := hb.start_lt_stop
  have h2 := hclose.start_lt_stop
  unfold Bracket.outer at h
  unfold between widen Bracket.outer
  cases b.lead <;> cases close.trail <;> simp at h ⊢ <;> omega

/-- Occurrences of tags in order are in order, and each of them holds something. -/
theorem Pairing.inOrder {pairs : Text → Bool} {bs : List Bracket} {os : List Occurrence}
    (h : Pairing pairs bs os) {hi lo : Nat} (hbs : Bracket.InOrder hi lo bs)
    (hproper : ∀ b ∈ bs, b.Proper) :
    Span.InOrder hi lo (os.map span) ∧ ∀ o ∈ os, o.span.start < o.span.stop := by
  induction h generalizing lo with
  | nil => exact ⟨hbs, fun o ho => by cases ho⟩
  | @single b rest os arguments form _ _ ih =>
    obtain ⟨h1, -, h3⟩ := hbs
    obtain ⟨h4, h5, h6⟩ := alone_span (hproper b List.mem_cons_self) arguments form
    obtain ⟨h7, h8⟩ := ih h3 fun c hc => hproper c (List.mem_cons_of_mem _ hc)
    refine ⟨⟨Nat.le_trans h1 h4, Nat.le_of_lt h5, h7.mono_left h6⟩, ?_⟩
    intro o ho
    rcases List.mem_cons.1 ho with rfl | ho
    · exact h5
    · exact h8 o ho
  | @pair b close mid after os arguments _ _ _ _ _ ih =>
    obtain ⟨h1, -, h3⟩ := hbs
    rw [List.map_append] at h3
    obtain ⟨m, hmid, h4, -, hafter⟩ := Span.inOrder_append.1 h3
    have hclose : close ∈ b :: (mid ++ close :: after) := by simp
    obtain ⟨h5, h6, h7⟩ := between_span (hproper b List.mem_cons_self) (hproper close hclose)
      (Nat.le_trans hmid.le h4) arguments
    obtain ⟨h8, h9⟩ := ih hafter fun c hc => hproper c (by simp [hc])
    refine ⟨⟨Nat.le_trans h1 h5, Nat.le_of_lt h6, h8.mono_left h7⟩, ?_⟩
    intro o ho
    rcases List.mem_cons.1 ho with rfl | ho
    · exact h6
    · exact h9 o ho

end Occurrence

end Shortcode
