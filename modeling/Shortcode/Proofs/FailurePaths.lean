import Shortcode.Proofs.Following

/-!
# The path to a failure

With handlers that render the content of their tags and pass errors on, a rendering fails only if
some handler fails with a message of its own.  The first one that does, in the order in which
handlers are called, ends the rendering: its message is the last text of the error, and in front of
it stand the tags that enclose it, the outermost first.
-/

namespace Shortcode

variable {σ : Type}

namespace Renderer

/-- **The error of a rendering names the tags around the handler that fails first.**  The calls are
those that a host notes which follows the rendering: through the tags of the text in the order in
which they stand, and through those in the content of a tag while its handler is running.  The last
of `calls` is the first to fail, each of the others encloses the next one, and after that handlers
only end. -/
theorem renderWithin_along (renderer : Renderer σ) {text : Text} {depth : Nat} {w : World σ}
    (hdepth : text.length < depth) (hw : w.PassesOn renderer.registry) :
    ∃ d pairs marks ending,
      Course renderer.registry (.row text d (Scan.ofText text pairs).occurrences) marks ending ∧
      match Mark.firstFailure? [] marks with
      | none => ending = none ∧ ∃ out v, renderer.renderWithin depth text w = .ok out v ∧
          ∀ noted, renderer.followed.renderWithin depth text (w.followed noted) =
            .ok out (v.followed (noted ++ marks))
      | some (calls, failure, after) => ∃ outer inner m e v,
          Nested renderer.registry text calls ∧ calls = outer :: inner ∧ failure = .message m ∧
          renderer.renderWithin depth text w = .error e v ∧ e.tag = outer.name ∧
          e.cause.chain = inner.map (fun call => handlerFailed call.name) ++ [m] ∧
          (∀ mark ∈ after, mark.Fails) ∧ ending = some e.toFailure ∧
          ∀ noted, renderer.followed.renderWithin depth text (w.followed noted) =
            .error e (v.followed (noted ++ marks)) := by
  obtain ⟨d, pairs, htakes⟩ := takes_renderWithin hdepth hw
  refine ⟨d, pairs, ?_⟩
  generalize renderer.renderWithin depth text w = result at htakes ⊢
  cases htakes with
  | @ok marks out v _ hmarks _ hfollowed =>
    have hnone : Mark.firstFailure? [] marks = none := by
      simpa [Stage.running, Mark.firstFailure?] using hmarks.finds rfl [] []
    refine ⟨marks, none, hmarks, ?_⟩
    rw [hnone]
    exact ⟨rfl, out, v, rfl, hfollowed⟩
  | @error marks e v _ hmarks _ hfollowed =>
    obtain ⟨calls, m, after, hfails, hfailure⟩ := hmarks.finds rfl
    have hsome : Mark.firstFailure? [] marks = some (calls, .message m, after) := by
      simpa [Stage.running] using hfails.firstFailure?_eq [] []
    have hnested := hfails.encloses pairs fun _ ho => ho
    obtain ⟨outer, inner, rfl⟩ := List.exists_cons_of_ne_nil hnested.ne_nil
    obtain ⟨htag, hcause⟩ := Failure.rendering.inj hfailure
    refine ⟨marks, _, hmarks, ?_⟩
    rw [hsome]
    refine ⟨outer, inner, m, e, v, hnested, rfl, rfl, rfl, htag, ?_, hfails.after_fails, rfl,
      hfollowed⟩
    rw [hcause]
    refine (Failure.chain_along _ _).trans ?_
    rw [List.map_map]
    rfl

/-- The handler of `boom` fails in an `i` in an `a`, behind another `i` in that `a` and one in front
of it that were rendered. -/
theorem renderWithin_along_third :
    (let r : Registry := ⟨0, []⟩;
    let braces : Handler Unit := Template.handler (Text.ofString "<\x7bcontent\x7d>") none;
    let fails : Handler Unit := fun call => .fail (.message (call.name ++ [Byte.bang]));
    let w : World Unit :=
      (((World.initial ()).newRegistry []).2.register r (Text.ofString "a") braces
        |>.register r (Text.ofString "i") braces).register r (Text.ofString "boom") fails;
    let text := Text.ofString "[i]x[/i][a][i]y[/i]z[i][boom][/i][late][/a]";
    text.length < 50 ∧ w.PassesOn r ∧ ∃ (marks : List Mark) (calls : List Invocation)
      (after : List Mark) (e : RenderError) (v : World Unit),
      Mark.firstFailure? [] marks = some (calls, .message (Text.ofString "boom!"), after) ∧
      Nested r text calls ∧
      calls.map (fun call => handlerFailed call.name) =
        [Text.ofString "handler for [a] failed", Text.ofString "handler for [i] failed",
          Text.ofString "handler for [boom] failed"] ∧
      (standard r).renderWithin 50 text w = .error e v ∧
      ∀ noted, (standard r).followed.renderWithin 50 text (w.followed noted) =
        .error e (v.followed (noted ++ marks))) := by
  intro r braces fails w text
  have hdepth : text.length < 50 := by decide +kernel
  have hw : w.PassesOn r := by
    have hfails : fails.PassesOn := by
      rintro call failure ⟨⟩
      exact ⟨_, rfl⟩
    have hbraces : braces.PassesOn := Template.passesOn_handler _ _
    have hnew : ((World.initial ()).newRegistry []).2.PassesOn r := fun tag _ hfound => by
      cases ((World.initial ()).handler?_newRegistry [] tag).symm.trans hfound
    exact ((hnew.register _ _ hbraces).register _ _ hbraces).register _ _ hfails
  have hchain : (match (standard r).renderWithin 50 text w with
      | .error e _ => e.toFailure.chain
      | _ => []) =
      [Text.ofString "handler for [a] failed", Text.ofString "handler for [i] failed",
        Text.ofString "handler for [boom] failed"] ++ [Text.ofString "boom!"] := by decide +kernel
  obtain ⟨d, pairs, marks, ending, -, h⟩ := renderWithin_along (standard r) hdepth hw
  refine ⟨hdepth, hw, marks, ?_⟩
  split at h
  · obtain ⟨-, out, v, hok, -⟩ := h
    rw [hok] at hchain
    cases hchain
  · rename_i calls failure after hfirst
    obtain ⟨outer, inner, m, e, v, hnested, rfl, rfl, herror, htag, hcause, -, -, hfollowed⟩ := h
    have hcalls : e.toFailure.chain =
        (outer :: inner).map (fun call => handlerFailed call.name) ++ [m] := by
      show handlerFailed e.tag :: e.cause.chain = _
      rw [htag, hcause]
      rfl
    rw [herror] at hchain
    obtain ⟨hnames, hmessage⟩ := List.append_inj' (hcalls.symm.trans hchain) rfl
    obtain rfl := List.singleton_inj.1 hmessage
    exact ⟨_, after, e, v, hfirst, hnested, hnames, herror, hfollowed⟩

end Renderer

end Shortcode
