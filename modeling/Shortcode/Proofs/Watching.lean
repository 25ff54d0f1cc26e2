import Shortcode.Proofs.Carrying

/-!
# Watched renderings

A watched host notes each call of a handler before the handler runs, and counts how often the
elements of a text are looked for.  Handlers cannot see what is noted, and whatever they do, also
registering other handlers, is watched.  So watching changes nothing else: a watched computation
ends as the computation does that it watches.

    (Likeness.watching since n).Renders render render' →
      (Likeness.watching since n).Runs render render'                              (runs_watching)
-/

namespace Shortcode

variable {σ : Type}

/-! ## Watched hosts -/

/-- The state of a host, and what is noted about its renderings. -/
structure Watched (σ : Type) where
  state : σ
  /-- The calls of handlers, in order. -/
  calls : List Invocation
  /-- How often the elements of a text were looked for. -/
  analyses : Nat

/-- A watched host carries the host that it watches.  A call is noted before the handler runs. -/
def Carrier.watching : Carrier σ (Watched σ) where
  get s := s.state
  set state s := { s with state := state }
  get_set _ _ := rfl
  set_get _ := rfl
  enter invocation a := .getState fun s => .setState { s with calls := s.calls ++ [invocation] } a
  leave result := .done result

/-- An analysis is counted. -/
def Analyzer.watched (analyzer : Analyzer σ) : Analyzer (Watched σ) := fun source markup s =>
  ((analyzer source markup s.state).1,
    ⟨(analyzer source markup s.state).2, s.calls, s.analyses + 1⟩)

def Renderer.watched (renderer : Renderer σ) : Renderer (Watched σ) :=
  ⟨renderer.registry, renderer.analyzer.watched, renderer.policy⟩

/-- The world of a watched host on which `calls` and `analyses` are noted. -/
def World.watched (w : World σ) (calls : List Invocation) (analyses : Nat) : World (Watched σ) :=
  w.carried .watching ⟨w.state, calls, analyses⟩

/-! ## Watching changes nothing -/

/-- The second world is the first one watched: nothing but calls was noted after `since`, and `n`
analyses were counted. -/
def World.Watches (since : List Invocation) (n : Nat) (w : World σ) (v : World (Watched σ)) :
    Prop :=
  ∃ calls, since <+: calls ∧ v = w.watched calls n

/-- A host and the host that watches it. -/
def Likeness.watching (since : List Invocation) (n : Nat) : Likeness σ (Watched σ) :=
  Carrier.watching.likeness fun s => since <+: s.calls ∧ s.analyses = n

section

variable {since : List Invocation} {n : Nat}

theorem Likeness.watching_worlds_iff {w : World σ} {v : World (Watched σ)} :
    (Likeness.watching since n).worlds w v ↔ w.Watches since n v := by
  constructor
  · rintro ⟨⟨state, calls, n⟩, ⟨hcalls, rfl⟩, rfl, rfl⟩
    exact ⟨calls, hcalls, rfl⟩
  · rintro ⟨calls, hcalls, rfl⟩
    exact ⟨⟨w.state, calls, n⟩, ⟨hcalls, rfl⟩, rfl, rfl⟩

theorem World.watches_watched (w : World σ) (calls : List Invocation) (n : Nat) :
    w.Watches calls n (w.watched calls n) := ⟨calls, calls.prefix_refl, rfl⟩

/-- The call is noted, and then the handler runs. -/
theorem Likeness.runs_watching {render : Rendering σ} {render' : Rendering (Watched σ)}
    (hrender : (Likeness.watching since n).Renders render render') :
    (Likeness.watching since n).Runs render render' := by
  rintro handler invocation w _ ⟨s, ⟨hcalls, hn⟩, hget, rfl⟩
  refine (handler invocation).alike_run_carried (fun _ _ h => h) hrender (fun result w v h => ?_)
    ⟨{ s with calls := s.calls ++ [invocation] },
      ⟨hcalls.trans (List.prefix_append _ _), hn⟩, hget, rfl⟩
  cases result with
  | ok replacement => exact .ok h
  | error failure => exact .error h

end

end Shortcode
