import Shortcode.Proofs.Anchors
import Shortcode.Proofs.ValidText
import Shortcode.Render.Renderer
import Shortcode.Template

/-!
# Templates are filled in one pass

A template is taken apart into placeholders and literals, the texts between them that hold no
placeholder.  Filling it puts the value of its word in the place of each placeholder and leaves the
literals as they are, whatever the values hold.  So filling two templates one after the other is
filling them put together, unless a placeholder begins in the first and ends in the second.

    fill value (ofCharacters parts.source) = parts.filled value                       (fill_source)
    ¬(EndsOpen a ∧ Closes b) → fill value (ofCharacters (a ++ b)) =
      fill value (ofCharacters a) ++ fill value (ofCharacters b)                      (fill_append)

The handler asks for the content of its tag once, whatever the template.
-/

namespace Shortcode

open Byte
open Text (ofCharacters)

/-! ## Texts that a program asks for -/

/-- The texts that a program has rendered when it is run, in order, each with the registry that
it is rendered through. -/
def Action.asked {σ : Type} (render : Rendering σ) : Action σ → World σ → List (Registry × Text)
  | .done _, _ => []
  | .getState next, w => (next w.state).asked render w
  | .setState state next, w => next.asked render { w with state := state }
  | .register r tag handler next, w => next.asked render (w.register r tag handler)
  | .unregister r tag next, w => (next (w.unregister r tag).1).asked render (w.unregister r tag).2
  | .isRegistered r tag next, w => (next (w.isRegistered r tag)).asked render w
  | .setPolicy policy next, w => next.asked render { w with policy := policy }
  | .render r text next, w =>
    (r, text) ::
      match render r text w with
      | .ok out w => (next (.ok out)).asked render w
      | .error e w => (next (.error e)).asked render w
      | .tooDeep => []

/-- A run depends on no renderings but those of the texts that are asked for. -/
theorem Action.run_congr_of_asked {σ : Type} {render render' : Rendering σ} {a : Action σ}
    {w : World σ} (h : ∀ q ∈ a.asked render w, render' q.1 q.2 = render q.1 q.2) :
    a.run render' w = a.run render w := by
  induction a generalizing w with
  | done result => cases result <;> rfl
  | getState next ih => exact ih w.state h
  | setState state next ih => exact ih h
  | register r tag handler next _ ih => exact ih h
  | unregister r tag next ih => exact ih _ h
  | isRegistered r tag next ih => exact ih _ h
  | setPolicy policy next ih => exact ih h
  | render r text next ih =>
    rw [asked] at h
    obtain ⟨hfirst, hrest⟩ := List.forall_mem_cons.1 h
    rw [run, run, hfirst]
    cases hout : render r text w with
    | ok out v =>
      rw [hout] at hrest
      exact ih _ hrest
    | error e v =>
      rw [hout] at hrest
      exact ih _ hrest
    | tooDeep => rfl

/-- The content of a call, rendered through the registry of the call; nothing if there is none. -/
def Invocation.renderedContent {σ : Type} (render : Rendering σ) (invocation : Invocation)
    (w : World σ) : Result σ RenderError Text :=
  match invocation.content with
  | none => .ok [] w
  | some content => render invocation.registry content w

namespace Template

/-! ## Places and literals -/

/-- A run of word characters that is not empty. -/
def IsWord (cs : List Char) : Prop := cs ≠ [] ∧ ∀ c ∈ cs, CharacterClass.isWord c = true

/-- The placeholder of a word. -/
def placeholder (word : List Char) : List Char := '{' :: (word ++ ['}'])

/-- Characters among which no placeholder stands. -/
def IsLiteral (cs : List Char) : Prop := ∀ word, IsWord word → ¬ placeholder word <:+: cs

/-- The characters end in a brace and, behind it, nothing but word characters. -/
def EndsOpen (cs : List Char) : Prop :=
  ∃ front run, (∀ c ∈ run, CharacterClass.isWord c = true) ∧ cs = front ++ '{' :: run

/-- A template taken apart from left to right. -/
inductive Parts where
  | last (literal : List Char) (h : IsLiteral literal)
  | place (literal word : List Char) (h : IsLiteral literal) (hword : IsWord word) (rest : Parts)

namespace Parts

/-- The template. -/
def source : Parts → List Char
  | last literal _ => literal
  | place literal word _ _ rest => literal ++ (placeholder word ++ rest.source)

/-- The literals, with the values of the words between them. -/
def filled (value : Text → Text) : Parts → Text
  | last literal _ => ofCharacters literal
  | place literal word _ _ rest =>
    ofCharacters literal ++ (value (ofCharacters word) ++ rest.filled value)

end Parts

/-- The equations of a function that fills templates. -/
structure IsOnePass (out : Text) (arguments : Arguments) (text : List Char → Text) : Prop where
  content : text (placeholder "content".toList) = out
  argument : ∀ word, IsWord word → word ≠ "content".toList →
    text (placeholder word) = (arguments.get? (ofCharacters word)).getD []
  literal : ∀ t, IsLiteral t → text t = ofCharacters t
  append : ∀ a b, ¬ EndsOpen a → text (a ++ b) = text a ++ text b
  /-- The values stand where the placeholders stood, just as they are. -/
  parts : ∀ parts : Parts, text parts.source = parts.filled (valueOf out arguments)

/-! ## Reading a placeholder -/

/-- Behind a brace the characters complete a placeholder. -/
def Completes (cs : List Char) : Prop := ∃ word after, IsWord word ∧ cs = word ++ '}' :: after

/-- So they do behind a brace and any word characters. -/
def Closes (cs : List Char) : Prop :=
  ∃ run after, (∀ c ∈ run, CharacterClass.isWord c = true) ∧ cs = run ++ '}' :: after

theorem Completes.append {cs : List Char} (h : Completes cs) (ds : List Char) :
    Completes (cs ++ ds) := by
  obtain ⟨word, after, hword, rfl⟩ := h
  exact ⟨word, after ++ ds, hword, by rw [List.append_assoc, List.cons_append]⟩

/-- A placeholder that is completed in a text stands in its front, or ends behind it. -/
theorem completes_append {cs ds : List Char} (h : Completes (cs ++ ds)) :
    Completes cs ∨ (∀ c ∈ cs, CharacterClass.isWord c = true) ∧ Closes ds := by
  obtain ⟨word, after, hword, heq⟩ := h
  rcases List.append_eq_append_iff.1 heq with ⟨run, rfl, hds⟩ | ⟨tail, rfl, htail⟩
  · exact .inr ⟨fun c hc => hword.2 c (List.mem_append_left _ hc), run, after,
      fun c hc => hword.2 c (List.mem_append_right _ hc), hds⟩
  · cases tail with
    | nil => exact .inr ⟨by rw [List.append_nil]; exact hword.2, [], after, nofun, htail.symm⟩
    | cons c tail =>
      cases htail
      exact .inl ⟨word, tail, hword, rfl⟩

theorem placeholder?_of_word {word : List Char} (hword : IsWord word) (after : List Char) :
    placeholder? (ofCharacters (word ++ '}' :: after)) =
      some (ofCharacters word, ofCharacters after) := by
  have hclose : CharacterClass.isWord '}' = false := by decide +kernel
  have htake : (word ++ '}' :: after).takeWhile CharacterClass.isWord = word := by
    rw [List.takeWhile_append_of_pos hword.2, List.takeWhile_cons_of_neg (by simp [hclose]),
      List.append_nil]
  have hdrop : (word ++ '}' :: after).dropWhile CharacterClass.isWord = '}' :: after := by
    rw [List.dropWhile_append_of_pos hword.2, List.dropWhile_cons_of_neg (by simp [hclose])]
  have hne : ofCharacters word ≠ [] := fun h => hword.1 (Text.ofCharacters_injective h)
  rw [placeholder?, Text.splitWhile_ofCharacters, htake, hdrop]
  cases hbytes : ofCharacters word with
  | nil => exact absurd hbytes hne
  | cons b bytes => rfl

theorem placeholder?_of_not_completes {cs : List Char} (h : ¬ Completes cs) :
    placeholder? (ofCharacters cs) = none := by
  have hrun : ∀ c ∈ cs.takeWhile CharacterClass.isWord, CharacterClass.isWord c = true :=
    fun c hc => List.mem_takeWhile_imp hc
  have hcs := (List.takeWhile_append_dropWhile (p := CharacterClass.isWord) (l := cs)).symm
  rw [placeholder?, Text.splitWhile_ofCharacters]
  generalize cs.takeWhile CharacterClass.isWord = run at hrun hcs
  generalize cs.dropWhile CharacterClass.isWord = after at hcs
  cases hbytes : ofCharacters run with
  | nil => rfl
  | cons b bytes =>
    cases after with
    | nil => rfl
    | cons c after =>
      have hne : run ≠ [] := fun hnil => by
        rw [hnil] at hbytes
        cases hbytes
      have hc : c ≠ '}' := fun hclose => h ⟨run, after, ⟨hne, hrun⟩, hclose ▸ hcs⟩
      have hnot := Text.notMem_encode (b := rightBrace) (by decide) hc
      rw [Text.ofCharacters_cons]
      cases hencode : String.utf8EncodeChar c with
      | nil => exact absurd hencode String.utf8EncodeChar_ne_nil
      | cons x rest =>
        rw [hencode] at hnot
        have hx : x ≠ rightBrace := fun hx => hnot (hx ▸ List.mem_cons_self)
        simp only [List.cons_append, if_neg hx]

/-! ## Filling from left to right -/

section

variable (value : Text → Text)

theorem fill_nil : fill value (ofCharacters []) = [] := by
  rw [ofCharacters, List.flatMap_nil, fill]

theorem fill_place {word : List Char} (hword : IsWord word) (after : List Char) :
    fill value (ofCharacters (placeholder word ++ after)) =
      value (ofCharacters word) ++ fill value (ofCharacters after) := by
  have hsource : ofCharacters (placeholder word ++ after) =
      leftBrace :: ofCharacters (word ++ '}' :: after) := by
    rw [placeholder, List.cons_append, List.append_assoc, List.singleton_append,
      Text.ofCharacters_cons]
    rfl
  rw [hsource, fill, if_pos rfl]
  split
  · rename_i hsome
    cases hsome.symm.trans (placeholder?_of_word hword after)
    rfl
  · rename_i hnone
    cases hnone.symm.trans (placeholder?_of_word hword after)

/-- Bytes other than braces stay. -/
theorem fill_append_of_notMem {bytes : Text} (h : leftBrace ∉ bytes) (t : Text) :
    fill value (bytes ++ t) = bytes ++ fill value t := by
  induction bytes with
  | nil => rfl
  | cons b bytes ih =>
    obtain ⟨hb, hrest⟩ := not_or.1 fun hmem => h (List.mem_cons.2 hmem)
    rw [List.cons_append, fill, if_neg (Ne.symm hb), ih hrest, List.cons_append]

/-- A character stays, if it is no brace that opens a placeholder. -/
theorem fill_keep {c : Char} {cs : List Char} (h : c = '{' → ¬ Completes cs) :
    fill value (ofCharacters (c :: cs)) =
      String.utf8EncodeChar c ++ fill value (ofCharacters cs) := by
  rw [Text.ofCharacters_cons]
  by_cases hc : c = '{'
  · have hbrace : String.utf8EncodeChar c = [leftBrace] := by
      rw [hc]
      rfl
    rw [hbrace, List.singleton_append, fill, if_pos rfl]
    split
    · rename_i hsome
      cases hsome.symm.trans (placeholder?_of_not_completes (h hc))
    · rfl
  · exact fill_append_of_notMem value (Text.notMem_encode (by decide) hc) _

end

/-- Induction along a template: a character that stays, or a placeholder. -/
theorem induction {motive : List Char → Prop} (nil : motive [])
    (keep : ∀ c cs, (c = '{' → ¬ Completes cs) → motive cs → motive (c :: cs))
    (place : ∀ word after, IsWord word → motive after → motive (placeholder word ++ after))
    (t : List Char) : motive t := by
  induction hn : t.length using Nat.strongRecOn generalizing t with
  | _ n ih =>
    subst hn
    cases t with
    | nil => exact nil
    | cons c cs =>
      by_cases hplace : c = '{' ∧ Completes cs
      · obtain ⟨rfl, word, after, hword, rfl⟩ := hplace
        have hmotive := place word after hword (ih _ (by simp; omega) after rfl)
        rwa [placeholder, List.cons_append, List.append_assoc, List.singleton_append] at hmotive
      · exact keep c cs (fun hc hcs => hplace ⟨hc, hcs⟩) (ih _ (Nat.lt_succ_self _) cs rfl)

/-! ## Putting templates together -/

theorem EndsOpen.append {cs : List Char} (h : EndsOpen cs) (front : List Char) :
    EndsOpen (front ++ cs) := by
  obtain ⟨before, run, hrun, rfl⟩ := h
  exact ⟨front ++ before, run, hrun, (List.append_assoc ..).symm⟩

/-- Two templates are filled one after the other, unless a placeholder may begin in the first and
end in the second. -/
theorem fill_append (value : Text → Text) {a b : List Char} (h : ¬ (EndsOpen a ∧ Closes b)) :
    fill value (ofCharacters (a ++ b)) =
      fill value (ofCharacters a) ++ fill value (ofCharacters b) := by
  induction a using Template.induction with
  | nil => rw [List.nil_append, fill_nil, List.nil_append]
  | keep c cs hkeep ih =>
    have hrest := ih fun ⟨hopen, hclose⟩ => h ⟨hopen.append [c], hclose⟩
    have hkeep' : c = '{' → ¬ Completes (cs ++ b) := by
      rintro rfl hcompletes
      rcases completes_append hcompletes with hcs | ⟨hrun, hclose⟩
      · exact hkeep rfl hcs
      · exact h ⟨⟨[], cs, hrun, rfl⟩, hclose⟩
    rw [List.cons_append, fill_keep value hkeep', fill_keep value hkeep, hrest, List.append_assoc]
  | place word after hword ih =>
    have hrest := ih fun ⟨hopen, hclose⟩ => h ⟨hopen.append _, hclose⟩
    rw [List.append_assoc, fill_place value hword, fill_place value hword, hrest,
      List.append_assoc]

/-! ## Literals and parts -/

theorem IsLiteral.of_cons {c : Char} {cs : List Char} (h : IsLiteral (c :: cs)) : IsLiteral cs :=
  fun word hword hin => h word hword (hin.trans (List.suffix_cons c cs).isInfix)

theorem isLiteral_nil : IsLiteral [] := fun _ _ h => by
  cases List.eq_nil_of_infix_nil h

theorem IsLiteral.cons {c : Char} {cs : List Char} (h : IsLiteral cs)
    (hc : c = '{' → ¬ Completes cs) : IsLiteral (c :: cs) := by
  intro word hword hin
  rcases List.infix_cons_iff.1 hin with ⟨after, hafter⟩ | hin
  · rw [placeholder, List.cons_append, List.append_assoc, List.singleton_append] at hafter
    obtain ⟨hbrace, hcs⟩ := List.cons.inj hafter
    exact hc hbrace.symm ⟨word, after, hword, hcs.symm⟩
  · exact h word hword hin

/-- A literal stays as it is. -/
theorem fill_of_isLiteral (value : Text → Text) {cs : List Char} (h : IsLiteral cs) :
    fill value (ofCharacters cs) = ofCharacters cs := by
  induction cs using Template.induction with
  | nil => exact fill_nil value
  | keep c cs hkeep ih => rw [fill_keep value hkeep, ih h.of_cons, Text.ofCharacters_cons]
  | place word after hword ih =>
    exact absurd (List.prefix_append _ _).isInfix (h word hword)

theorem fill_source (value : Text → Text) (parts : Parts) :
    fill value (ofCharacters parts.source) = parts.filled value := by
  induction parts with
  | last literal h => exact fill_of_isLiteral value h
  | place literal word h hword rest ih =>
    -- the text behind the literal starts with a brace, which completes no placeholder
    have hclose : ¬ Closes (placeholder word ++ rest.source) := by
      rintro ⟨run, after, hrun, heq⟩
      cases run with
      | nil => cases heq
      | cons c run =>
        obtain rfl : '{' = c := (List.cons.inj heq).1
        exact absurd (hrun '{' List.mem_cons_self) (by decide +kernel)
    rw [Parts.source, Parts.filled, fill_append value fun both => hclose both.2,
      fill_of_isLiteral value h, fill_place value hword, ih]

/-- Every template can be taken apart. -/
theorem exists_parts (t : List Char) : ∃ parts : Parts, parts.source = t := by
  induction t using Template.induction with
  | nil => exact ⟨.last [] isLiteral_nil, rfl⟩
  | keep c cs hkeep ih =>
    obtain ⟨parts, rfl⟩ := ih
    cases parts with
    | last literal h => exact ⟨.last (c :: literal) (h.cons hkeep), rfl⟩
    | place literal word h hword rest =>
      exact ⟨.place (c :: literal) word (h.cons fun hc hcs => hkeep hc (hcs.append _)) hword rest,
        rfl⟩
  | place word after hword ih =>
    obtain ⟨rest, rfl⟩ := ih
    exact ⟨.place [] word isLiteral_nil hword rest, rfl⟩

/-! ## Main statement -/

theorem isOnePass_fill (out : Text) (arguments : Arguments) :
    IsOnePass out arguments fun t => fill (valueOf out arguments) (ofCharacters t) := by
  have hplace : ∀ word, IsWord word →
      fill (valueOf out arguments) (ofCharacters (placeholder word)) =
        valueOf out arguments (ofCharacters word) := by
    intro word hword
    have hfill := fill_place (valueOf out arguments) hword []
    rwa [List.append_nil, fill_nil, List.append_nil] at hfill
  refine ⟨?_, fun word hword hne => ?_, fun t => fill_of_isLiteral _, fun a b h => ?_,
    fill_source _⟩
  · have hcontent : IsWord "content".toList :=
      ⟨by decide, List.all_eq_true.1 (by decide +kernel)⟩
    exact (hplace _ hcontent).trans (if_pos rfl)
  · exact (hplace word hword).trans (if_neg fun h => hne (Text.ofCharacters_injective h))
  · exact fill_append _ fun both => h both.1

variable {σ : Type}

/-- **A template is filled in one pass, and the content is rendered once.** -/
theorem handler_fills {render : Rendering σ} {invocation : Invocation} {w v : World σ} {out : Text}
    (h : invocation.renderedContent render w = .ok out v) :
    (∀ t : List Char, ∃ parts : Parts, parts.source = t) ∧
    ∃ text : List Char → Text, IsOnePass out invocation.arguments text ∧
      ∀ t placement,
        (handler (ofCharacters t) placement invocation).run render w = .ok ⟨text t, placement⟩ v ∧
        (handler (ofCharacters t) placement invocation).asked render w =
          (invocation.content.map fun content => (invocation.registry, content)).toList := by
  refine ⟨exists_parts, _, isOnePass_fill out invocation.arguments, fun t placement => ?_⟩
  rw [Invocation.renderedContent] at h
  rw [handler, rendered]
  cases hcontent : invocation.content with
  | none =>
    rw [hcontent] at h
    cases h
    exact ⟨rfl, rfl⟩
  | some content =>
    simp only [hcontent] at h
    simp only [Action.rendered, Action.run, Action.asked, h]
    exact ⟨rfl, rfl⟩

/-- The content holds a tag, an argument and what the tag stands for look like placeholders, and
there are braces that enclose no word. -/
theorem handler_fills_braces :
    (let r : Registry := ⟨0, []⟩;
    let w : World Unit := ((World.initial ()).newRegistry []).2.register r (Text.ofString "name")
      (handler (Text.ofString "\x7bv\x7d") none);
    let render : Rendering Unit := fun r => Renderer.renderWithin 17 (.standard r);
    let content := Text.ofString "a [name v=\x7bx\x7d]";
    let invocation : Invocation := ⟨Text.ofString "b",
      .ofList [(Text.ofString "x", Text.ofString "\x7bcontent\x7d")], some content, r, .none⟩;
    let t := "\x7b\x7bx\x7d\x7bcontent\x7d\x7bé\x7d\x7b\x7d\x7bcontent\x7d\x7bx".toList;
    let out := Text.ofString "a \x7bx\x7d";
    ∃ v, invocation.renderedContent render w = .ok out v ∧
      ∃ text, IsOnePass out invocation.arguments text ∧
        text t = Text.ofString "\x7b\x7bcontent\x7da \x7bx\x7d\x7b\x7da \x7bx\x7d\x7bx" ∧
        (handler (ofCharacters t) none invocation).run render w = .ok ⟨text t, none⟩ v ∧
        (handler (ofCharacters t) none invocation).asked render w = [(r, content)]) := by
  intro r w render content invocation t out
  have hvalue : (invocation.renderedContent render w).value? = some out := by decide +kernel
  have hfilled : ((handler (ofCharacters t) none invocation).run render w).value? =
      some ⟨Text.ofString "\x7b\x7bcontent\x7da \x7bx\x7d\x7b\x7da \x7bx\x7d\x7bx", none⟩ := by
    decide +kernel
  cases hout : invocation.renderedContent render w with
  | ok found v =>
    rw [hout] at hvalue
    cases hvalue
    obtain ⟨-, text, hpass, hrun⟩ := handler_fills hout
    obtain ⟨hrun, hasked⟩ := hrun t none
    rw [hrun] at hfilled
    exact ⟨v, rfl, text, hpass, congrArg Replacement.text (Option.some.inj hfilled), hrun, hasked⟩
  | error e v =>
    rw [hout] at hvalue
    cases hvalue
  | tooDeep =>
    rw [hout] at hvalue
    cases hvalue

end Template

end Shortcode
