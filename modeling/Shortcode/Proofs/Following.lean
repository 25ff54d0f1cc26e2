import Shortcode.Proofs.CallOrder
import Shortcode.Proofs.Courses

/-!
# Renderings that are followed

A host that is followed notes where handlers are called and where they end.  Handlers cannot see
what is noted.  If they render nothing but the content of their tags, with the registry that called
them, and pass its errors on, then what is noted about a rendering is a `Course`, and the rendering
ends as the course does.

    w.PassesOn renderer.registry → text.length < depth →
      ∃ d pairs, Takes … (.row text d (Scan.ofText text pairs).occurrences) …
        (renderer.renderWithin depth text w)                                    (takes_renderWithin)
-/

namespace Shortcode

variable {σ : Type}

/-! ## Handlers that pass errors on -/

/-- The steps of a handler that was called by `call`.  It renders the content of its tag only, as
often as it likes, with the registry that called it.  After an error, which is then `pending`, it
renders no more and ends with that error.  Handlers that it registers are of the same kind. -/
def Action.PassesOn (call : Invocation) (pending : Option Failure) : Action σ → Prop
  | .done result => match pending with
    | none => ∀ failure, result = .error failure → ∃ m, failure = .message m
    | some failure => result = .error failure
  | .getState next => ∀ state, (next state).PassesOn call pending
  | .setState _ next => next.PassesOn call pending
  | .register _ _ handler next => (∀ other, (handler other).PassesOn other none) ∧
      next.PassesOn call pending
  | .unregister _ _ next => ∀ found, (next found).PassesOn call pending
  | .isRegistered _ _ next => ∀ found, (next found).PassesOn call pending
  | .setPolicy _ next => next.PassesOn call pending
  | .render r text next => pending = none ∧ r = call.registry ∧ call.content = some text ∧
      (∀ out, (next (.ok out)).PassesOn call none) ∧
      ∀ e, (next (.error e)).PassesOn call (some e.toFailure)

def Handler.PassesOn (handler : Handler σ) : Prop := ∀ call, (handler call).PassesOn call none

/-- All handlers of a registry pass errors on. -/
def World.PassesOn (w : World σ) (r : Registry) : Prop :=
  ∀ tag handler, w.handler? r tag = some handler → handler.PassesOn

/-- A handler that fills a template does. -/
theorem Template.passesOn_handler (template : Text) (placement : Option Placement) :
    (Template.handler (σ := σ) template placement).PassesOn := by
  intro call
  rw [handler, rendered]
  cases hcontent : call.content with
  | none =>
    intro failure h
    cases h
  | some content =>
    refine ⟨rfl, rfl, hcontent, fun out failure h => ?_, fun e => rfl⟩
    cases h

namespace World.PassesOn

variable {w v : World σ} {r : Registry} {handler : Handler σ}

theorem of_tables (hw : w.PassesOn r) (h : v.tables = w.tables) : v.PassesOn r := by
  intro tag handler hfound
  rw [handler?_of_tables h] at hfound
  exact hw tag handler hfound

theorem register (hw : w.PassesOn r) (r' : Registry) (tag : Text) (hhandler : handler.PassesOn) :
    (w.register r' tag handler).PassesOn r := by
  intro other found hfound
  obtain rfl | hfound := handler?_register hfound
  · exact hhandler
  · exact hw other found hfound

theorem unregister (hw : w.PassesOn r) (r' : Registry) (tag : Text) :
    (w.unregister r' tag).2.PassesOn r := by
  intro other found hfound
  rw [handler?_unregister_eq] at hfound
  split at hfound
  · cases hfound
  · exact hw other found hfound

end World.PassesOn

/-! ## Hosts that are followed -/

/-- The state of a host, and the marks that its handlers have left. -/
structure Followed (σ : Type) where
  state : σ
  marks : List Mark

def Followed.note (mark : Mark) (s : Followed σ) : Followed σ :=
  { s with marks := s.marks ++ [mark] }

def Carrier.following : Carrier σ (Followed σ) where
  get s := s.state
  set state s := { s with state := state }
  get_set _ _ := rfl
  set_get _ := rfl
  enter call a := .getState fun s => .setState (s.note (.enter call)) a
  leave result := .getState fun s => .setState (s.note (.leave result)) (.done result)

/-- The world of a host on which `marks` are noted. -/
def World.followed (w : World σ) (marks : List Mark) : World (Followed σ) :=
  w.carried .following ⟨w.state, marks⟩

def Renderer.followed (renderer : Renderer σ) : Renderer (Followed σ) := renderer.carried .following

/-- A computation takes a course and ends as the course does.  Followed, it ends with the same
result and with the marks of the course added to what was noted before. -/
inductive Takes {ε α : Type} (r : Registry) (stage : Stage) (toFailure : ε → Failure) :
    Result σ ε α → (List Mark → Result (Followed σ) ε α) → Prop
  | ok {marks : List Mark} {a : α} {w : World σ} {followed : List Mark → Result (Followed σ) ε α} :
      Course r stage marks none → w.PassesOn r →
      (∀ noted, followed noted = .ok a (w.followed (noted ++ marks))) →
      Takes r stage toFailure (.ok a w) followed
  | error {marks : List Mark} {e : ε} {w : World σ}
      {followed : List Mark → Result (Followed σ) ε α} :
      Course r stage marks (some (toFailure e)) → w.PassesOn r →
      (∀ noted, followed noted = .error e (w.followed (noted ++ marks))) →
      Takes r stage toFailure (.error e w) followed

/-- What comes before, with the marks `front`, makes the course of another stage out of that of
one. -/
theorem Takes.behind {ε α : Type} {r : Registry} {stage stage' : Stage} {toFailure : ε → Failure}
    {x : Result σ ε α} {followed : List Mark → Result (Followed σ) ε α}
    (h : Takes r stage toFailure x followed) (front : List Mark)
    (hcourse : ∀ marks ending, Course r stage marks ending →
      Course r stage' (front ++ marks) ending) :
    Takes r stage' toFailure x fun noted => followed (noted ++ front) := by
  cases h with
  | ok hmarks hw hfollowed =>
    exact .ok (hcourse _ _ hmarks) hw fun noted => by rw [hfollowed, List.append_assoc]
  | error hmarks hw hfollowed =>
    exact .error (hcourse _ _ hmarks) hw fun noted => by rw [hfollowed, List.append_assoc]

theorem Takes.map {ε α β : Type} {r : Registry} {stage : Stage} {toFailure : ε → Failure}
    {x : Result σ ε α} {followed : List Mark → Result (Followed σ) ε α}
    (h : Takes r stage toFailure x followed) (f : α → β) :
    Takes r stage toFailure (x.map f) fun noted => (followed noted).map f := by
  cases h with
  | ok hmarks hw hfollowed => exact .ok hmarks hw fun noted => by rw [hfollowed, Result.map]
  | error hmarks hw hfollowed => exact .error hmarks hw fun noted => by rw [hfollowed, Result.map]

/-- A text is rendered by going through its tags. -/
def Rendering.Takes (render : Rendering σ) (render' : Rendering (Followed σ)) (r : Registry)
    (text : Text) : Prop :=
  ∀ w : World σ, w.PassesOn r → ∃ d pairs,
    Shortcode.Takes r (.row text d (Scan.ofText text pairs).occurrences) RenderError.toFailure
      (render r text w) fun noted => render' r text (w.followed noted)

/-! ## Handlers -/

section

variable {render : Rendering σ} {render' : Rendering (Followed σ)} (call : Invocation)
  (hrender : ∀ content, call.content = some content → render.Takes render' call.registry content)

include hrender

/-- The steps of a handler, by induction on them: what is still to come takes a course of its
own. -/
theorem Action.takes_run {a : Action σ} {pending : Option Failure} (ha : a.PassesOn call pending)
    {w : World σ} (hw : w.PassesOn call.registry) :
    Takes call.registry (.call call pending) id (a.run render w)
      fun noted => (a.carried .following).run render' (w.followed noted) := by
  induction a generalizing pending w with
  | done result =>
    cases pending with
    | some failure =>
      cases ha
      exact .error .passedOn hw fun noted => rfl
    | none =>
      cases result with
      | ok replacement => exact .ok (.gave replacement) hw fun noted => rfl
      | error failure =>
        obtain ⟨m, rfl⟩ := ha failure rfl
        exact .error (.gaveUp m) hw fun noted => rfl
  | getState next ih => exact ih w.state (ha w.state) hw
  | setState state next ih => exact ih ha (w := { w with state := state }) hw
  | register r tag handler next _ ih =>
    have hstep : ∀ noted, (w.followed noted).register r tag (Handler.carried .following handler) =
        (w.register r tag handler).followed noted :=
      fun noted => (w.carried_register _ _ r tag handler).symm
    have hnext := ih ha.2 (hw.register r tag ha.1)
    simp only [← hstep] at hnext
    exact hnext
  | unregister r tag next ih =>
    have hfound : ∀ noted, (w.followed noted).isRegistered r tag = w.isRegistered r tag :=
      fun noted => w.isRegistered_carried _ _ r tag
    have hstep : ∀ noted, ((w.followed noted).unregister r tag).2 =
        (w.unregister r tag).2.followed noted := fun noted => (w.carried_unregister _ _ r tag).symm
    have hnext := ih _ (ha (w.unregister r tag).1) (hw.unregister r tag)
    simp only [← hstep] at hnext
    simp only [carried, run, World.unregister, hfound] at hnext ⊢
    exact hnext
  | isRegistered r tag next ih =>
    have hfound : ∀ noted, (w.followed noted).isRegistered r tag = w.isRegistered r tag :=
      fun noted => w.isRegistered_carried _ _ r tag
    simp only [carried, run, hfound]
    exact ih _ (ha _) hw
  | setPolicy policy next ih => exact ih ha (w := { w with policy := policy }) hw
  | render r text next ih =>
    obtain ⟨rfl, rfl, hcontent, hok, herror⟩ := ha
    obtain ⟨d, pairs, hout⟩ := hrender text hcontent w hw
    simp only [carried, run]
    generalize render call.registry text w = x at hout ⊢
    cases hout with
    | ok hinner hv hfollowed =>
      simp only [hfollowed]
      exact (ih _ (hok _) hv).behind _ fun _ _ hmarks => .rendered hcontent hinner hmarks
    | error hinner hv hfollowed =>
      simp only [hfollowed]
      exact (ih _ (herror _) hv).behind _ fun _ _ hmarks => .broken hcontent hinner hmarks

end

/-! ## Tags -/

namespace Rules

variable {render : Rendering σ} {render' : Rendering (Followed σ)} {rules : Rules} {source : Text}
  {d : Document} {spans : List Span} {o : Occurrence} {os : List Occurrence} {w v : World σ}

theorem place_followed (o : Occurrence) (resolved : Resolved) (w : World σ) (noted : List Mark) :
    (place o resolved d spans (w.followed noted)).2 =
      (place o resolved d spans w).2.followed noted :=
  place_map (World.followed · noted) (fun _ _ _ => rfl) o resolved w

/-- The handler of a tag is called, which is noted first. -/
theorem resolve_followed {handler : Handler σ} (hcalls : w.calls rules.registry o = true)
    (hhandler : w.handler? rules.registry o.name = some handler) (noted : List Mark) :
    rules.resolve render' source d o (w.followed noted) =
      o.resolved (((handler (o.call rules.registry source d)).carried .following).run render'
        (w.followed (noted ++ [.enter (o.call rules.registry source d)]))) := by
  have hcalls' : (w.followed noted).calls rules.registry o = true :=
    (calls_carried ..).trans hcalls
  have hhandler' : (w.followed noted).handler? rules.registry o.name =
      some (handler.carried .following) := by
    rw [World.followed, w.handler?_carried, hhandler, Option.map_some]
  rw [resolve_of_calls hcalls' hhandler']
  rfl

/-- Tags are gone through from left to right, up to the first whose handler fails. -/
theorem takes_resolutions (hrender : ∀ o ∈ os, ∀ content, o.contentText source = some content →
      render.Takes render' rules.registry content) (hw : w.PassesOn rules.registry) :
    Takes rules.registry (.row source d os) RenderError.toFailure
      (rules.resolutions render source d spans os w)
      fun noted => rules.resolutions render' source d spans os (w.followed noted) := by
  induction os generalizing w with
  | nil => exact .ok .done hw fun noted => by rw [List.append_nil]; rfl
  | cons o rest ih =>
    obtain ⟨ho, hrest⟩ := List.forall_mem_cons.1 hrender
    cases hcalls : w.calls rules.registry o with
    | false =>
      have hcalls' : ∀ noted, (w.followed noted).calls rules.registry o = false := fun noted =>
        (calls_carried ..).trans hcalls
      rw [resolutions_of_ok (resolve_of_calls_eq_false hcalls render source d)]
      simp only [resolutions_of_ok (resolve_of_calls_eq_false (hcalls' _) render' source d)]
      have hpassed : Takes _ (.row source d (o :: rest)) _ _ _ :=
        (ih hrest hw).behind [] fun _ _ hmarks => .passed hmarks
      simp only [List.append_nil] at hpassed
      exact hpassed.map _
    | true =>
      obtain ⟨handler, hhandler⟩ : ∃ handler, w.handler? rules.registry o.name = some handler :=
        Option.isSome_iff_exists.1 (Bool.and_eq_true_iff.1 hcalls).2
      have hrun := Action.takes_run (o.call rules.registry source d) ho
        (hw o.name handler hhandler _) hw
      have hresolve : rules.resolve render source d o w =
          o.resolved ((handler (o.call rules.registry source d)).run render w) :=
        resolve_of_calls hcalls hhandler
      have hresolve' : ∀ noted, rules.resolve render' source d o (w.followed noted) = _ :=
        resolve_followed hcalls hhandler
      generalize (handler (o.call rules.registry source d)).run render w = x at hrun hresolve
      have hnoted : ∀ noted inner, noted ++ [Mark.enter (o.call rules.registry source d)] ++ inner =
          noted ++ (.enter (o.call rules.registry source d) :: inner) := fun noted inner =>
        List.append_assoc ..
      cases hrun with
      | ok hinner hu hfollowed =>
        simp only [hfollowed, hnoted] at hresolve'
        rw [resolutions_of_ok hresolve]
        simp only [resolutions_of_ok (hresolve' _), place_followed]
        exact ((ih hrest (hu.of_tables (covers_place ..).tables)).behind
          (.enter (o.call rules.registry source d) :: _)
          fun _ _ hmarks => .returned hinner hmarks).map _
      | error hinner hu hfollowed =>
        simp only [hfollowed, hnoted] at hresolve'
        rw [resolutions_of_error hresolve]
        simp only [resolutions_of_error (hresolve' _)]
        exact .error (.failed hinner) hu fun noted => rfl

end Rules

/-! ## Texts -/

namespace Renderer

variable {renderer : Renderer σ} {text : Text} {w : World σ} {depth : Nat}

theorem followed_standard (r : Registry) : (standard r : Renderer σ).followed = .standard r :=
  Carrier.carried_standard _ r

/-- With nothing to do nothing is called. -/
theorem takes_of_idle (hidle : renderer.hasActionable text w = false)
    (hw : w.PassesOn renderer.registry) (depth : Nat) (d : Document) (os : List Occurrence) :
    Takes renderer.registry (.row text d os) RenderError.toFailure
      (renderer.renderWithin (depth + 1) text w)
      fun noted => renderer.followed.renderWithin (depth + 1) text (w.followed noted) := by
  have hidle' : ∀ noted, renderer.followed.hasActionable text (w.followed noted) = false :=
    fun noted => (Carrier.hasActionable_carried renderer).trans hidle
  simp only [renderWithin, step_of_idle hidle, step_of_idle (hidle' _)]
  refine .ok (.idle text d os) ?_ fun noted => ?_
  · split
    · exact hw
    · exact hw.of_tables rfl
  · rw [List.append_nil]
    split <;> rfl

/-- Every text takes a course, by induction on the depth: the content of a tag is shorter than the
text in which the tag stands. -/
theorem takes_renderWithin (hdepth : text.length < depth) (hw : w.PassesOn renderer.registry) :
    ∃ d pairs, Takes renderer.registry (.row text d (Scan.ofText text pairs).occurrences)
      RenderError.toFailure (renderer.renderWithin depth text w)
      fun noted => renderer.followed.renderWithin depth text (w.followed noted) := by
  induction depth generalizing renderer text w with
  | zero => omega
  | succ depth ih =>
    refine ⟨(renderer.analyzed text w).1, w.isRegistered renderer.registry, ?_⟩
    cases hbusy : renderer.hasActionable text w with
    | false => exact takes_of_idle hbusy hw depth _ _
    | true =>
      have hrender : ∀ o ∈ (renderer.scan text w).occurrences, ∀ content,
          o.contentText text = some content →
          Rendering.Takes (fun r => renderWithin depth (.standard r) : Rendering σ)
            (fun r => renderWithin depth (.standard r)) (renderer.rules w).registry content := by
        intro o ho content hcontent u hu
        have hlt := Scan.length_contentText_lt ho hcontent
        obtain ⟨d, pairs, htakes⟩ := ih (by omega : content.length < depth)
          (show u.PassesOn (standard (renderer.rules w).registry : Renderer σ).registry from hu)
        rw [followed_standard] at htakes
        exact ⟨d, pairs, htakes⟩
      have hanalyzed : (renderer.analyzed text w).2.PassesOn (renderer.rules w).registry := by
        rw [analyzed, if_pos hbusy]
        exact hw.of_tables rfl
      have hfollowed : ∀ noted,
          renderer.followed.renderWithin (depth + 1) text (w.followed noted) = _ :=
        fun noted => renderWithin_carried_of_busy .following rfl hbusy depth
      simp only [renderWithin_of_busy hbusy, hfollowed, Rules.renderSegments_eq_map,
        Rules.resolveAll_eq]
      exact ((Rules.takes_resolutions hrender hanalyzed).map _).map _

end Renderer

end Shortcode
