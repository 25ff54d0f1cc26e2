import Shortcode.Proofs.FastPaths

/-!
# Renderings that are heard

A rendering is heard by a host that notes the calls which the rendering makes itself.  Texts that a
handler renders make calls too; those are made while the handler runs, so the host counts how many
handlers are running and notes a call when none is.  What is heard is rendered as it is without.

    renderWithin depth … w.heard calls (k + 1)   notes nothing         (Likeness.renders_hearing)
-/

namespace Shortcode

open Result (Alike)

variable {σ τ : Type}

/-! ## Renderers side by side -/

/-- Renderers of one registry that go by the same rules and find the same elements in worlds that
are alike. -/
structure Likeness.Analyzes (l : Likeness σ τ) (renderer : Renderer σ) (renderer' : Renderer τ) :
    Prop where
  registry : renderer'.registry = renderer.registry
  rules : ∀ {w v}, l.worlds w v → renderer'.rules v = renderer.rules w
  document : ∀ {w v}, l.worlds w v → ∀ text markup,
    (renderer'.analyzer text markup v.state).1 = (renderer.analyzer text markup w.state).1
  worlds : ∀ {w v}, l.worlds w v → ∀ text markup,
    l.worlds { w with state := (renderer.analyzer text markup w.state).2 }
      { v with state := (renderer'.analyzer text markup v.state).2 }

namespace Likeness.Analyzes

variable {l : Likeness σ τ} {renderer : Renderer σ} {renderer' : Renderer τ} {w : World σ}
  {v : World τ} {render : Rendering σ} {render' : Rendering τ} {text : Text}
  (hl : l.Analyzes renderer renderer')

include hl

theorem scan_eq (h : l.worlds w v) : renderer'.scan text v = renderer.scan text w := by
  rw [Renderer.scan, Renderer.scan, hl.registry]
  exact congrArg (Scan.ofText text) (funext (l.isRegistered_eq h renderer.registry))

theorem hasActionable_eq (h : l.worlds w v) :
    renderer'.hasActionable text v = renderer.hasActionable text w := by
  rw [Renderer.hasActionable, Renderer.hasActionable, hl.scan_eq h, hl.rules h]
  exact congrArg (List.any _) (funext (l.isActionable_eq h _))

theorem alike_of_idle (hidle : renderer.hasActionable text w = false) (h : l.worlds w v) :
    Alike l.worlds (renderer.step render text w) (renderer'.step render' text v) := by
  rw [Renderer.step_of_idle hidle, Renderer.step_of_idle ((hl.hasActionable_eq h).trans hidle)]
  refine .ok ?_
  split
  · exact h
  · rw [Renderer.recordUnchanged, Renderer.recordUnchanged, hl.registry]
    exact l.record h _ _

/-- If handlers run alike, texts are rendered alike. -/
theorem alike_step (hruns : l.Runs render render') (h : l.worlds w v) :
    Alike l.worlds (renderer.step render text w) (renderer'.step render' text v) := by
  cases hbusy : renderer.hasActionable text w with
  | false => exact hl.alike_of_idle hbusy h
  | true =>
    rw [Renderer.step_of_busy hbusy, Renderer.step_of_busy ((hl.hasActionable_eq h).trans hbusy),
      Renderer.thoroughStep, Renderer.thoroughStep, hl.scan_eq h, hl.rules h]
    show Alike _ _ (Rules.renderSegments render' _ text _ (renderer'.analyzer text _ v.state).1 _)
    rw [hl.document h]
    exact Likeness.alike_renderSegments hruns _ (hl.worlds h text _)

end Likeness.Analyzes

/-! ## Renderers on a carrier -/

namespace Carrier

variable {c : Carrier σ τ} {P : τ → Prop} {w : World σ} {v : World τ} {s : τ} {text : Text}
  (renderer : Renderer σ)

theorem scan_carried :
    (renderer.carried c).scan text (w.carried c s) = renderer.scan text w :=
  congrArg (Scan.ofText text) (funext fun tag => w.isRegistered_carried c s _ tag)

theorem hasActionable_carried :
    (renderer.carried c).hasActionable text (w.carried c s) = renderer.hasActionable text w := by
  have hregistered : ∀ o, (renderer.rules w).isActionable o (w.carried c s) =
      (renderer.rules w).isActionable o w := by
    intro o
    rw [Rules.isActionable, Rules.isActionable, w.isRegistered_carried]
  rw [Renderer.hasActionable, Renderer.hasActionable, scan_carried]
  exact congrArg (List.any _) (funext hregistered)

/-- The document of a text and the world after it was looked for, on the carrier. -/
theorem thoroughStep_carried (render : Rendering τ) (hget : c.get s = w.state) :
    (renderer.carried c).thoroughStep render text (w.carried c s) =
      let analysis := renderer.analyzer text (renderer.scan text w).markup w.state
      (renderer.rules w).renderSegments render text (renderer.scan text w).segments analysis.1
        (World.carried c { w with state := analysis.2 } (c.set analysis.2 s)) := by
  rw [Renderer.thoroughStep, scan_carried, ← hget]
  rfl

theorem analyzes_carried (hset : ∀ state s, P s → P (c.set state s)) :
    (c.likeness P).Analyzes renderer (renderer.carried c) where
  registry := rfl
  rules := by
    rintro w _ ⟨s, -, -, rfl⟩
    rfl
  document := by
    rintro w _ ⟨s, -, hget, rfl⟩ text markup
    rw [← hget]
    rfl
  worlds := by
    rintro w _ ⟨s, hs, hget, rfl⟩ text markup
    rw [← hget]
    exact ⟨_, hset _ s hs, c.get_set _ s, rfl⟩

theorem carried_standard (c : Carrier σ τ) (r : Registry) :
    (Renderer.standard r : Renderer σ).carried c = .standard r := by
  have hanalyzer : Analyzer.carried c .standard = .standard := by
    funext source markup s
    rw [Analyzer.carried, Analyzer.standard, Analyzer.standard, c.set_get]
  rw [Renderer.carried, Renderer.standard, hanalyzer]
  rfl

end Carrier

/-! ## Hosts that hear -/

/-- The state of a host, and the calls that one rendering makes itself. -/
structure Heard (σ : Type) where
  state : σ
  /-- In the order in which they were made. -/
  calls : List Invocation
  /-- How many handlers are running. -/
  running : Nat

namespace Heard

/-- A handler is called.  The call is noted unless another handler is running. -/
def enter (invocation : Invocation) (s : Heard σ) : Heard σ where
  state := s.state
  calls := if s.running = 0 then s.calls ++ [invocation] else s.calls
  running := s.running + 1

/-- A handler ends. -/
def leave (s : Heard σ) : Heard σ := { s with running := s.running - 1 }

end Heard

def Carrier.hearing : Carrier σ (Heard σ) where
  get s := s.state
  set state s := { s with state := state }
  get_set _ _ := rfl
  set_get _ := rfl
  enter invocation a := .getState fun s => .setState (s.enter invocation) a
  leave result := .getState fun s => .setState s.leave (.done result)

def Renderer.heard (renderer : Renderer σ) : Renderer (Heard σ) := renderer.carried .hearing

/-- The world of a host that has noted `calls` and on which `running` handlers are running. -/
def World.heard (w : World σ) (calls : List Invocation) (running : Nat) : World (Heard σ) :=
  w.carried .hearing ⟨w.state, calls, running⟩

/-- A host and the one that hears it, as long as nothing more is noted. -/
def Likeness.hearing (calls : List Invocation) (running : Nat) : Likeness σ (Heard σ) :=
  Carrier.hearing.likeness fun s => s.calls = calls ∧ s.running = running

section

variable {w : World σ} {v : World (Heard σ)} {calls : List Invocation} {k : Nat}
  {render : Rendering σ} {render' : Rendering (Heard σ)}

theorem World.carries_hearing_iff :
    Carrier.hearing.Carries (fun s => s.calls = calls ∧ s.running = k) w v ↔
      v = w.heard calls k := by
  constructor
  · rintro ⟨⟨state, calls, k⟩, ⟨rfl, rfl⟩, rfl, rfl⟩
    rfl
  · rintro rfl
    exact ⟨⟨w.state, calls, k⟩, ⟨rfl, rfl⟩, rfl, rfl⟩

/-- At its end a handler is running no more. -/
theorem Action.alike_run_heard (hrender : (Likeness.hearing calls (k + 1)).Renders render render')
    (a : Action σ) (w : World σ) :
    Alike (fun u v => v = u.heard calls k) (a.run render w)
      ((a.carried .hearing).run render' (w.heard calls (k + 1))) := by
  have hleave : ∀ result {w : World σ} {v : World (Heard σ)},
      Carrier.hearing.Carries (fun s => s.calls = calls ∧ s.running = k + 1) w v →
        Alike (Carrier.hearing.Carries fun s => s.calls = calls ∧ s.running = k)
          ((Action.done result).run render w) ((Carrier.hearing.leave result).run render' v) := by
    rintro result w _ ⟨s, ⟨hcalls, hrunning⟩, hget, rfl⟩
    have hs : s.leave.calls = calls ∧ s.leave.running = k :=
      ⟨hcalls, by rw [Heard.leave, hrunning]; rfl⟩
    cases result with
    | ok replacement => exact .ok ⟨s.leave, hs, hget, rfl⟩
    | error failure => exact .error ⟨s.leave, hs, hget, rfl⟩
  have halike := a.alike_run_carried (fun _ _ h => h) hrender hleave
    (World.carries_hearing_iff (w := w) (k := k + 1) |>.2 rfl)
  exact halike.mono fun u v => World.carries_hearing_iff.1

/-- A call that is made while no handler is running is noted. -/
theorem Handler.alike_run_direct (handler : Handler σ) (invocation : Invocation)
    (hrender : (Likeness.hearing (calls ++ [invocation]) 1).Renders render render') (w : World σ) :
    Alike (fun u v => v = u.heard (calls ++ [invocation]) 0) ((handler invocation).run render w)
      ((handler.carried .hearing invocation).run render' (w.heard calls 0)) :=
  (handler invocation).alike_run_heard hrender w

/-- A call that is made while a handler is running is not noted. -/
theorem Likeness.runs_hearing (hrender : (Likeness.hearing calls (k + 2)).Renders render render') :
    (Likeness.hearing calls (k + 1)).Runs render render' := by
  intro handler invocation w v h
  obtain rfl := World.carries_hearing_iff.1 h
  exact ((handler invocation).alike_run_heard hrender w).mono fun u v =>
    World.carries_hearing_iff.2

/-- While a handler is running texts are rendered as they are without being heard, and nothing is
noted. -/
theorem Likeness.renders_hearing (depth : Nat) (calls : List Invocation) (k : Nat) :
    (Likeness.hearing (σ := σ) calls (k + 1)).Renders
      (fun r => Renderer.renderWithin depth (.standard r))
      (fun r => Renderer.renderWithin depth (.standard r)) := by
  induction depth generalizing k with
  | zero => exact fun _ _ _ _ _ => .tooDeep
  | succ depth ih =>
    intro r text w v h
    have hstep : Alike _ ((Renderer.standard r).step _ text w)
        (((Renderer.standard r).carried .hearing).step _ text v) :=
      (Carrier.analyzes_carried _ fun _ _ h => h).alike_step (Likeness.runs_hearing (ih (k + 1))) h
    rw [Carrier.carried_standard] at hstep
    exact hstep

end

end Shortcode
