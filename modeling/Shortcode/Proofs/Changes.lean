import Shortcode.Proofs.Snapshot

/-!
# Changes while a text is rendered

Handlers may set the policy and register or unregister tags.  Such a change says nothing about how
the text around is cut up, nor what becomes of the tags in it without a handler.  So handlers that
differ in the policies they set alone make no difference to that text (`Action.SameButPolicy`).
Renderings that start after the change, also inside the handler that makes it, go by the new policy
and the new handlers (`Change`).

    (standard r).Walks (Change.policyAfter w.policy changes) … inner (Change.applyAll changes w)
                                                                                  (walks_after)
-/

namespace Shortcode

open Result (Alike)

variable {σ : Type}

/-! ## Programs that differ in the policies they set -/

/-- The programs take the same steps, up to policies that are set on either side, and register
handlers that do so.  They render nothing, since a rendering would read the policy. -/
inductive Action.SameButPolicy : Action σ → Action σ → Prop
  | done (result : Except Failure Replacement) : SameButPolicy (.done result) (.done result)
  | getState {next next' : σ → Action σ} :
      (∀ s, SameButPolicy (next s) (next' s)) → SameButPolicy (.getState next) (.getState next')
  | setState {s : σ} {next next' : Action σ} :
      SameButPolicy next next' → SameButPolicy (.setState s next) (.setState s next')
  | register {r : Registry} {tag : Text} {handler handler' : Invocation → Action σ}
      {next next' : Action σ} :
      (∀ i, SameButPolicy (handler i) (handler' i)) → SameButPolicy next next' →
      SameButPolicy (.register r tag handler next) (.register r tag handler' next')
  | unregister {r : Registry} {tag : Text} {next next' : Bool → Action σ} :
      (∀ found, SameButPolicy (next found) (next' found)) →
      SameButPolicy (.unregister r tag next) (.unregister r tag next')
  | isRegistered {r : Registry} {tag : Text} {next next' : Bool → Action σ} :
      (∀ found, SameButPolicy (next found) (next' found)) →
      SameButPolicy (.isRegistered r tag next) (.isRegistered r tag next')
  | left {p : Policy} {a b : Action σ} : SameButPolicy a b → SameButPolicy (.setPolicy p a) b
  | right {p : Policy} {a b : Action σ} : SameButPolicy a b → SameButPolicy a (.setPolicy p b)

def Handler.SameButPolicy (handler handler' : Handler σ) : Prop :=
  ∀ i, (handler i).SameButPolicy (handler' i)

/-- Worlds whose handlers differ in the policies they set alone.  The policies and the logs of the
worlds may differ. -/
structure World.SameButPolicy (w v : World σ) : Prop where
  handlers : ∀ r tag, Option.Rel Handler.SameButPolicy (w.handler? r tag) (v.handler? r tag)
  size : w.tables.length = v.tables.length
  shared : w.shared = v.shared
  state : w.state = v.state

namespace World.SameButPolicy

variable {w v : World σ}

theorem isRegistered_eq (h : w.SameButPolicy v) (r : Registry) (tag : Text) :
    w.isRegistered r tag = v.isRegistered r tag := by
  have hrel := h.handlers r tag
  show (w.handler? r tag).isSome = (v.handler? r tag).isSome
  generalize w.handler? r tag = x at hrel ⊢
  generalize v.handler? r tag = y at hrel ⊢
  cases hrel <;> rfl

theorem register (h : w.SameButPolicy v) (r : Registry) (tag : Text) {handler handler' : Handler σ}
    (hhandler : handler.SameButPolicy handler') :
    (w.register r tag handler).SameButPolicy (v.register r tag handler') where
  handlers r' other := by
    rw [handler?_register_eq, handler?_register_eq, ← h.size]
    split
    · exact .some hhandler
    · exact h.handlers r' other
  size := by
    show (w.tables.modify r.id _).length = (v.tables.modify r.id _).length
    rw [List.length_modify, List.length_modify, h.size]
  shared := h.shared
  state := h.state

theorem unregister (h : w.SameButPolicy v) (r : Registry) (tag : Text) :
    (w.unregister r tag).2.SameButPolicy (v.unregister r tag).2 where
  handlers r' other := by
    rw [handler?_unregister_eq, handler?_unregister_eq, ← h.size]
    split
    · exact .none
    · exact h.handlers r' other
  size := by
    show (w.tables.modify r.id _).length = (v.tables.modify r.id _).length
    rw [List.length_modify, List.length_modify, h.size]
  shared := h.shared
  state := h.state

end World.SameButPolicy

/-- Such programs end alike. -/
theorem Action.SameButPolicy.alike_run {a b : Action σ} (hab : a.SameButPolicy b)
    (render render' : Rendering σ) {w v : World σ} (h : w.SameButPolicy v) :
    Alike World.SameButPolicy (a.run render w) (b.run render' v) := by
  induction hab generalizing w v with
  | done result =>
    cases result with
    | ok x => exact .ok h
    | error failure => exact .error h
  | getState _ ih =>
    rw [run, run, h.state]
    exact ih _ h
  | setState _ ih => exact ih ⟨h.handlers, h.size, h.shared, rfl⟩
  | register hhandler _ _ ih => exact ih (h.register _ _ hhandler)
  | @unregister r tag _ _ _ ih =>
    have hfound : (w.unregister r tag).1 = (v.unregister r tag).1 := h.isRegistered_eq r tag
    rw [run, run, hfound]
    exact ih _ (h.unregister r tag)
  | @isRegistered r tag _ _ _ ih =>
    rw [run, run, h.isRegistered_eq r tag]
    exact ih _ h
  | left _ ih => exact ih ⟨h.handlers, h.size, h.shared, h.state⟩
  | right _ ih => exact ih ⟨h.handlers, h.size, h.shared, h.state⟩

/-- So worlds with such handlers match, whatever the text. -/
theorem World.SameButPolicy.matching (render : Rendering σ) (registry : Registry) (text : Text)
    (d : Document) (os : List Occurrence) :
    Rules.Matching World.SameButPolicy render registry text d os where
  names h := funext fun tag => h.isRegistered_eq registry tag
  record h _ _ := ⟨h.handlers, h.size, h.shared, h.state⟩
  runs o _ u v handler handler' h _ hhandler hhandler' := by
    have hrel := h.handlers registry o.name
    rw [hhandler, hhandler'] at hrel
    cases hrel with
    | some hrel => exact (hrel _).alike_run render render h

/-! ## Changes -/

/-- A change to what renderings ask for. -/
inductive Change (σ : Type) where
  | setPolicy (policy : Policy)
  | register (registry : Registry) (tag : Text) (handler : Handler σ)
  | unregister (registry : Registry) (tag : Text)

namespace Change

/-- The world after a change. -/
def apply (w : World σ) : Change σ → World σ
  | .setPolicy policy => { w with policy := policy }
  | .register r tag handler => w.register r tag handler
  | .unregister r tag => (w.unregister r tag).2

/-- The program that makes a change and goes on. -/
def andThen (next : Action σ) : Change σ → Action σ
  | .setPolicy policy => .setPolicy policy next
  | .register r tag handler => .register r tag handler next
  | .unregister r tag => .unregister r tag fun _ => next

/-- The world after some changes, made in order. -/
def applyAll (changes : List (Change σ)) (w : World σ) : World σ := changes.foldl apply w

/-- The program that makes some changes in order and goes on. -/
def allThen (changes : List (Change σ)) (next : Action σ) : Action σ :=
  changes.foldr (fun c a => c.andThen a) next

/-- The policy that was set last. -/
def policyAfter (p : Policy) : List (Change σ) → Policy
  | [] => p
  | .setPolicy q :: rest => policyAfter q rest
  | _ :: rest => policyAfter p rest

/-- What was made of a tag last. -/
def handlerAfter (r : Registry) (tag : Text) (found : Option (Handler σ)) :
    List (Change σ) → Option (Handler σ)
  | [] => found
  | .setPolicy _ :: rest => handlerAfter r tag found rest
  | .register r' tag' handler :: rest =>
    handlerAfter r tag (if r'.id = r.id ∧ tag = tag' then some handler else found) rest
  | .unregister r' tag' :: rest =>
    handlerAfter r tag (if r'.id = r.id ∧ tag = tag' then none else found) rest

theorem run_allThen (render : Rendering σ) (changes : List (Change σ)) (next : Action σ)
    (w : World σ) : (allThen changes next).run render w = next.run render (applyAll changes w) := by
  induction changes generalizing w with
  | nil => rfl
  | cons c rest ih =>
    cases c with
    | setPolicy policy => exact ih _
    | register r tag handler => exact ih _
    | unregister r tag => exact ih _

theorem length_tables_apply (w : World σ) (c : Change σ) :
    (c.apply w).tables.length = w.tables.length := by
  cases c with
  | setPolicy policy => rfl
  | register r tag handler => exact List.length_modify ..
  | unregister r tag => exact List.length_modify ..

theorem policy_applyAll (changes : List (Change σ)) (w : World σ) :
    (applyAll changes w).policy = policyAfter w.policy changes := by
  induction changes generalizing w with
  | nil => rfl
  | cons c rest ih =>
    show (applyAll rest (c.apply w)).policy = _
    rw [ih]
    cases c <;> rfl

theorem handler?_applyAll (changes : List (Change σ)) {w : World σ} {r : Registry}
    (hr : r.id < w.tables.length) (tag : Text) :
    (applyAll changes w).handler? r tag = handlerAfter r tag (w.handler? r tag) changes := by
  induction changes generalizing w with
  | nil => rfl
  | cons c rest ih =>
    show (applyAll rest (c.apply w)).handler? r tag = _
    rw [ih ((length_tables_apply w c).symm ▸ hr)]
    -- a handle of the table has its number, so that table exists
    have hin : ∀ {r' : Registry} {tag' : Text},
        (r'.id = r.id ∧ r'.id < w.tables.length ∧ tag = tag') = (r'.id = r.id ∧ tag = tag') :=
      fun {r'} {tag'} =>
      propext ⟨fun h => ⟨h.1, h.2.2⟩, fun h => ⟨h.1, h.1 ▸ hr, h.2⟩⟩
    cases c with
    | setPolicy policy => rfl
    | register r' tag' handler =>
      rw [apply, World.handler?_register_eq, handlerAfter]
      simp only [hin]
    | unregister r' tag' =>
      rw [apply, World.handler?_unregister_eq, handlerAfter]
      simp only [hin]

end Change

/-! ## Main statement -/

namespace Renderer

/-- A rendering that starts after some changes goes by the policy set last and by the handlers
registered last, for pairing and for the first tag it comes to. -/
theorem walks_after (changes : List (Change σ)) {r : Registry} {w : World σ}
    (hr : r.id < w.tables.length) (depth : Nat) (inner : Text) :
    (standard r).Walks (Change.policyAfter w.policy changes)
      (fun tag => (Change.handlerAfter r tag (w.handler? r tag) changes).isSome) depth inner
      (Change.applyAll changes w) := by
  have hpairs : (fun tag => (Change.handlerAfter r tag (w.handler? r tag) changes).isSome) =
      (Change.applyAll changes w).isRegistered r := by
    funext tag
    rw [← Change.handler?_applyAll changes hr]
    rfl
  rw [hpairs, ← Change.policy_applyAll]
  exact walks (standard r) depth inner (Change.applyAll changes w)

/-- What a rendering takes from the world that it starts in, and what from the worlds that it comes
to. -/
structure SnapshotAndLive (renderer : Renderer σ) (depth : Nat) (text : Text) (w : World σ) :
    Prop where
  /-- The text is cut up by the names registered at the start, and tags that have no handler when
  they are reached are left to the policy of the start. -/
  walks : renderer.Walks (renderer.policy.getD w.policy) (w.isRegistered renderer.registry) depth
    text w
  /-- A second run whose calls end alike ends alike.  Nothing is asked of the policies that are set
  on the way. -/
  sameTexts : ∀ (R : World σ → World σ → Prop) (v : World σ),
    (∀ state, R { w with state := state } { v with state := state }) → v.state = w.state →
    renderer.policy.getD v.policy = renderer.policy.getD w.policy →
    Rules.Matching R (fun r => renderWithin depth (.standard r)) renderer.registry text
      (renderer.analyzed text w).1 (renderer.scan text w).occurrences →
    Alike R (renderer.renderWithin (depth + 1) text w) (renderer.renderWithin (depth + 1) text v)
  /-- So does one whose handlers differ in the policies they set. -/
  otherPolicies : ∀ v : World σ, w.SameButPolicy v →
    renderer.policy.getD v.policy = renderer.policy.getD w.policy →
    Alike World.SameButPolicy (renderer.renderWithin (depth + 1) text w)
      (renderer.renderWithin (depth + 1) text v)
  /-- A program that makes changes and then renders a text renders it in the world after the
  changes. -/
  nested : ∀ (changes : List (Change σ)) (r : Registry) (inner : Text)
      (next : Except RenderError Text → Action σ),
    let render : Rendering σ := fun r => renderWithin (depth + 1) (.standard r)
    (Change.allThen changes (.render r inner next)).run render w =
      match (standard r).renderWithin (depth + 1) inner (Change.applyAll changes w) with
      | .ok out u => (next (.ok out)).run render u
      | .error e u => (next (.error e)).run render u
      | .tooDeep => .tooDeep
  /-- That rendering, and any later one without a policy of its own, goes by the policy set last and
  by the handlers registered last. -/
  later : ∀ (changes : List (Change σ)) (r : Registry) (inner : Text), r.id < w.tables.length →
    (∀ tag, (Change.applyAll changes w).handler? r tag =
      Change.handlerAfter r tag (w.handler? r tag) changes) ∧
    (standard r).Walks (Change.policyAfter w.policy changes)
      (fun tag => (Change.handlerAfter r tag (w.handler? r tag) changes).isSome) depth inner
      (Change.applyAll changes w)

/-- **A snapshot of policy and pairing, but live handlers.**  How a text is cut up and what becomes
of the tags without a handler is settled when its rendering starts; who handles a tag is settled
when the tag is reached.  Renderings that start later go by what has changed until then. -/
theorem snapshotAndLive (renderer : Renderer σ) (depth : Nat) (text : Text) (w : World σ) :
    renderer.SnapshotAndLive depth text w where
  walks := renderer.walks depth text w
  sameTexts _ _ hstart hstate hpolicy h :=
    alike_renderWithin_of_matching depth hstart hstate hpolicy h
  otherPolicies _ h hpolicy :=
    alike_renderWithin_of_matching depth (fun _ => ⟨h.handlers, h.size, h.shared, rfl⟩) h.state.symm
      hpolicy (World.SameButPolicy.matching _ _ _ _ _)
  nested changes r inner next := by
    intro render
    refine (Change.run_allThen render changes (.render r inner next) w).trans ?_
    cases hinner : (standard r).renderWithin (depth + 1) inner (Change.applyAll changes w) <;>
      simp only [Action.run, render, hinner]
  later changes _ inner hr :=
    ⟨Change.handler?_applyAll changes hr, walks_after changes hr depth inner⟩

/-- Two hosts differ in the policy that the handler of `[on]` sets.  No tag of the text shows it. -/
theorem snapshotAndLive_switch :
    (let r : Registry := ⟨0, []⟩;
    let on : Policy → Handler Unit := fun p _ => .setPolicy p (.give [] none);
    let host : Policy → World Unit := fun p =>
      ((World.initial ()).newRegistry []).2.register r (Text.ofString "on") (on p);
    let text := Text.ofString "[on][x]";
    (standard r).SnapshotAndLive 0 text (host .strip) ∧ (host .strip).SameButPolicy (host .warn) ∧
      Alike World.SameButPolicy ((standard r).renderWithin 1 text (host .strip))
        ((standard r).renderWithin 1 text (host .warn)) ∧
      ((standard r).renderWithin 1 text (host .strip)).value? = some (Text.ofString "[x]")) := by
  intro r on host text
  have hon : (on .strip).SameButPolicy (on .warn) := fun _ => .left (.right (.done _))
  have hnew : (((World.initial ()).newRegistry []).2 : World Unit).SameButPolicy
      ((World.initial ()).newRegistry []).2 :=
    ⟨fun r tag => by
      rw [World.handler?_newRegistry_eq]
      exact .none, rfl, rfl, rfl⟩
  have hhosts : (host .strip).SameButPolicy (host .warn) := hnew.register r _ hon
  have hsnapshot := snapshotAndLive (standard r) 0 text (host .strip)
  exact ⟨hsnapshot, hhosts, hsnapshot.otherPolicies (host .warn) hhosts rfl, by decide +kernel⟩

/-- The handler of `[on]` sets the policy, registers `new`, unregisters `old` and renders a text.
In that text the policy and the handlers are the new ones.  The text around is cut up as before, so
`[new]` takes no content though it has a handler when it is reached, `[old]` takes content though it
has none, and both policies are those of the start. -/
example :
    let r : Registry := ⟨0, []⟩
    let enclosed : Handler Unit := fun i => .give ((i.content.getD (Text.ofString "-"))) none
    let on : Handler Unit := fun _ => Change.allThen [.setPolicy .strip,
      .register r (Text.ofString "new") enclosed, .unregister r (Text.ofString "old")]
        (.rendered r (Text.ofString "[new]b[/new][old]c[/old]") fun out => .give out none)
    let w : World Unit := (((World.initial ()).newRegistry []).2.register r (Text.ofString "on")
      on).register r (Text.ofString "old") enclosed
    ((standard r).renderWithin 2 (Text.ofString "[on][new]b[/new][old]c[/old]") w).value? =
      some (Text.ofString "bc-b[/new][old]c[/old]") := by
  decide +kernel

end Renderer

end Shortcode
