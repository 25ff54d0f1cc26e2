import Shortcode.Render.Renderer

/-!
# The course of a rendering

A rendering goes through the tags of a text from left to right and calls handlers.  A handler that
renders the content of its tag has calls made inside its own, and if one of those fails it fails
with the same error.  A `Course` is all of this as a row of marks where a handler is called or ends.
The first failure in it is that of a handler which was called last among those that are running, and
the ends of the others are all that follows.

    Course r (.row text d os) marks (some failure) →
      ∃ calls m, firstFailure? [] marks = some (calls, .message m, _) ∧
        Nested r text calls ∧ failure = .along (calls.map (·.name)) (.message m)      (Course.finds)
-/

namespace Shortcode

/-! ## Failures -/

namespace Failure

/-- The failure of nested handlers, the outermost first, if the innermost fails with `failure`. -/
def along (tags : List Text) (failure : Failure) : Failure := tags.foldr .rendering failure

theorem chain_along (tags : List Text) (failure : Failure) :
    (along tags failure).chain = tags.map handlerFailed ++ failure.chain := by
  induction tags with
  | nil => rfl
  | cons tag tags ih => exact congrArg (handlerFailed tag :: ·) ih

end Failure

/-! ## Marks -/

/-- A handler is called, or it ends. -/
inductive Mark where
  | enter (call : Invocation)
  | leave (result : Except Failure Replacement)

namespace Mark

/-- The handler that fails first: the calls that are running then, the failing one last, with its
failure and the marks behind it.  Before the marks the calls of `running` were made, the last one
first. -/
def firstFailure? : List Invocation → List Mark → Option (List Invocation × Failure × List Mark)
  | _, [] => none
  | running, enter call :: rest => firstFailure? (call :: running) rest
  | running, leave (.ok _) :: rest => firstFailure? running.tail rest
  | running, leave (.error failure) :: rest => some (running.reverse, failure, rest)

/-- A handler ends and gives no text. -/
def Fails (mark : Mark) : Prop := ∃ failure, mark = leave (.error failure)

end Mark

/-! ## Courses -/

/-- The call of the handler of a tag. -/
def Occurrence.call (o : Occurrence) (r : Registry) (text : Text) (d : Document) : Invocation :=
  ⟨o.name, o.arguments, o.contentText text, r, .of o d⟩

/-- What a course is a course of. -/
inductive Stage where
  /-- Going through occurrences of a text. -/
  | row (text : Text) (d : Document) (os : List Occurrence)
  /-- What a handler does after it was called.  With `pending` it has that error to pass on. -/
  | call (call : Invocation) (pending : Option Failure)

/-- The marks that a stage leaves with the handlers of a registry, and the failure that it comes to,
if it does not succeed. -/
inductive Course (r : Registry) : Stage → List Mark → Option Failure → Prop
  | done {text : Text} {d : Document} : Course r (.row text d []) [] none
  /-- Nothing is called for a tag. -/
  | passed {text : Text} {d : Document} {o : Occurrence} {os : List Occurrence} {marks : List Mark}
      {ending : Option Failure} :
      Course r (.row text d os) marks ending → Course r (.row text d (o :: os)) marks ending
  | returned {text : Text} {d : Document} {o : Occurrence} {os : List Occurrence}
      {inner marks : List Mark} {ending : Option Failure} :
      Course r (.call (o.call r text d) none) inner none → Course r (.row text d os) marks ending →
      Course r (.row text d (o :: os)) (.enter (o.call r text d) :: (inner ++ marks)) ending
  /-- The handler of a tag fails, and the tags behind it are not reached. -/
  | failed {text : Text} {d : Document} {o : Occurrence} {os : List Occurrence} {inner : List Mark}
      {failure : Failure} :
      Course r (.call (o.call r text d) none) inner (some failure) →
      Course r (.row text d (o :: os)) (.enter (o.call r text d) :: inner)
        (some (.rendering o.name failure))
  | gave {call : Invocation} (replacement : Replacement) :
      Course r (.call call none) [.leave (.ok replacement)] none
  | gaveUp {call : Invocation} (m : Text) :
      Course r (.call call none) [.leave (.error (.message m))] (some (.message m))
  /-- The content is rendered, with whatever elements and pairs of tags are found in it. -/
  | rendered {call : Invocation} {content : Text} {pairs : Text → Bool} {d : Document}
      {inner marks : List Mark} {ending : Option Failure} : call.content = some content →
      Course r (.row content d (Scan.ofText content pairs).occurrences) inner none →
      Course r (.call call none) marks ending → Course r (.call call none) (inner ++ marks) ending
  | broken {call : Invocation} {content : Text} {pairs : Text → Bool} {d : Document}
      {inner marks : List Mark} {failure : Failure} {ending : Option Failure} :
      call.content = some content →
      Course r (.row content d (Scan.ofText content pairs).occurrences) inner (some failure) →
      Course r (.call call (some failure)) marks ending →
      Course r (.call call none) (inner ++ marks) ending
  | passedOn {call : Invocation} {failure : Failure} :
      Course r (.call call (some failure)) [.leave (.error failure)] (some failure)

/-- The calls of tags of which each stands in the content of the one before, and the first in the
text. -/
inductive Nested (r : Registry) : Text → List Invocation → Prop
  | last {text : Text} {pairs : Text → Bool} {d : Document} {o : Occurrence} :
      o ∈ (Scan.ofText text pairs).occurrences → Nested r text [o.call r text d]
  | inside {text content : Text} {pairs : Text → Bool} {d : Document} {o : Occurrence}
      {calls : List Invocation} : o ∈ (Scan.ofText text pairs).occurrences →
      o.contentText text = some content → Nested r content calls →
      Nested r text (o.call r text d :: calls)

theorem Nested.ne_nil {r : Registry} {text : Text} {calls : List Invocation}
    (h : Nested r text calls) : calls ≠ [] := by
  cases h <;> exact List.cons_ne_nil _ _

/-! ## The first failure -/

namespace Stage

/-- The handler that is running. -/
def running : Stage → List Invocation
  | .row .. => []
  | .call invocation _ => [invocation]

/-- The error that the handler has to pass on. -/
def pending? : Stage → Option Failure
  | .row .. => none
  | .call _ pending => pending

/-- The calls are made at this stage, each one while the one before it is running. -/
def Encloses (r : Registry) : Stage → List Invocation → Prop
  | .row text _ os, calls => ∀ pairs, (∀ o ∈ os, o ∈ (Scan.ofText text pairs).occurrences) →
      Nested r text calls
  | .call invocation _, calls => calls = [] ∨ ∃ content, invocation.content = some content ∧
      Nested r content calls

variable {r : Registry} {stage : Stage} {marks : List Mark}

/-- In the marks of a stage that fails, the last of `calls` is the first to fail. -/
structure FailsIn (r : Registry) (stage : Stage) (marks : List Mark) (calls : List Invocation)
    (m : Text) (after : List Mark) : Prop where
  encloses : stage.Encloses r calls
  after_fails : ∀ mark ∈ after, mark.Fails
  firstFailure?_eq : ∀ running rest,
    Mark.firstFailure? (stage.running ++ running) (marks ++ rest) =
      some (running.reverse ++ (stage.running ++ calls), .message m, after ++ rest)

/-- What the marks of a stage tell about its ending. -/
def Finds (r : Registry) (stage : Stage) (marks : List Mark) : Option Failure → Prop
  | none => ∀ running rest, Mark.firstFailure? (stage.running ++ running) (marks ++ rest) =
      Mark.firstFailure? running rest
  | some failure => ∃ calls m after, stage.FailsIn r marks calls m after ∧
      failure = .along (calls.map (·.name)) (.message m)

namespace FailsIn

variable {calls : List Invocation} {m : Text} {after front : List Mark} {text content : Text}
  {pairs : Text → Bool} {d : Document} {o : Occurrence} {os : List Occurrence}
  {invocation : Invocation} {failure : Failure}

theorem passed (h : FailsIn r (.row text d os) marks calls m after) :
    FailsIn r (.row text d (o :: os)) marks calls m after where
  encloses pairs hos := h.encloses pairs fun p hp => hos p (List.mem_cons_of_mem o hp)
  after_fails := h.after_fails
  firstFailure?_eq := h.firstFailure?_eq

/-- What does not fail can come first. -/
theorem behind (h : stage.FailsIn r marks calls m after)
    (hfront : ∀ running rest, Mark.firstFailure? (stage.running ++ running) (front ++ rest) =
      Mark.firstFailure? (stage.running ++ running) rest) :
    stage.FailsIn r (front ++ marks) calls m after where
  encloses := h.encloses
  after_fails := h.after_fails
  firstFailure?_eq running rest := by
    rw [List.append_assoc, hfront, h.firstFailure?_eq]

/-- A handler fails of itself. -/
theorem gaveUp (invocation : Invocation) (m : Text) :
    FailsIn r (.call invocation none) [.leave (.error (.message m))] [] m [] where
  encloses := .inl rfl
  after_fails := List.forall_mem_nil _
  firstFailure?_eq running rest := by
    show some ((invocation :: running).reverse, _, _) = _
    rw [List.reverse_cons]
    rfl

/-- A handler that fails makes the text fail in which its tag stands. -/
theorem failed (h : FailsIn r (.call (o.call r text d) none) marks calls m after) :
    FailsIn r (.row text d (o :: os)) (.enter (o.call r text d) :: marks) (o.call r text d :: calls)
      m after where
  encloses pairs hos := by
    have ho := hos o List.mem_cons_self
    obtain rfl | ⟨content, hcontent, hnested⟩ := h.encloses
    · exact .last ho
    · exact .inside ho hcontent hnested
  after_fails := h.after_fails
  firstFailure?_eq := h.firstFailure?_eq

/-- A text that fails makes the handler fail whose content it is. -/
theorem broken (hcontent : invocation.content = some content)
    (h : FailsIn r (.row content d (Scan.ofText content pairs).occurrences) marks calls m after)
    (failure : Failure) :
    FailsIn r (.call invocation none) (marks ++ [.leave (.error failure)]) calls m
      (after ++ [.leave (.error failure)]) where
  encloses := .inr ⟨content, hcontent, h.encloses pairs fun _ ho => ho⟩
  after_fails := by
    intro mark hmark
    obtain hmark | hmark := List.mem_append.1 hmark
    · exact h.after_fails mark hmark
    · exact ⟨failure, List.mem_singleton.1 hmark⟩
  firstFailure?_eq running rest := by
    have hfirst := h.firstFailure?_eq (invocation :: running) (.leave (.error failure) :: rest)
    rw [List.append_assoc, List.append_assoc]
    refine hfirst.trans ?_
    rw [List.reverse_cons, List.append_assoc]
    rfl

end FailsIn

end Stage

namespace Course

variable {r : Registry} {invocation : Invocation} {failure : Failure} {marks : List Mark}
  {ending : Option Failure} {stage : Stage}

theorem idle (text : Text) (d : Document) (os : List Occurrence) :
    Course r (.row text d os) [] none := by
  induction os with
  | nil => exact .done
  | cons o os ih => exact .passed ih

/-- With an error to pass on nothing more is called. -/
theorem of_pending (h : Course r (.call invocation (some failure)) marks ending) :
    marks = [.leave (.error failure)] ∧ ending = some failure := by
  cases h
  exact ⟨rfl, rfl⟩

/-- The marks of a course tell how it ends. -/
theorem finds (h : Course r stage marks ending) (hstage : stage.pending? = none) :
    stage.Finds r marks ending := by
  induction h with
  | done => exact fun _ _ => rfl
  | @passed _ _ _ _ _ ending _ ih =>
    have hfinds := ih rfl
    cases ending with
    | none => exact hfinds
    | some failure =>
      obtain ⟨calls, m, after, hfails, hfailure⟩ := hfinds
      exact ⟨calls, m, after, hfails.passed, hfailure⟩
  | @returned text d o os inner marks ending _ _ ihInner ihMarks =>
    have hinner : ∀ running rest, Mark.firstFailure? running
        ((.enter (o.call r text d) :: inner) ++ rest) = Mark.firstFailure? running rest :=
      ihInner rfl
    have hmarks := ihMarks rfl
    cases ending with
    | none =>
      intro running rest
      rw [← List.cons_append, List.append_assoc]
      exact (hinner _ _).trans (hmarks running rest)
    | some failure =>
      obtain ⟨calls, m, after, hfails, hfailure⟩ := hmarks
      exact ⟨calls, m, after, hfails.passed.behind hinner, hfailure⟩
  | failed _ ih =>
    obtain ⟨calls, m, after, hfails, rfl⟩ := ih rfl
    exact ⟨_, m, after, hfails.failed, rfl⟩
  | gave replacement => exact fun _ _ => rfl
  | gaveUp m => exact ⟨[], m, [], .gaveUp _ m, rfl⟩
  | @rendered invocation content pairs d inner marks ending hcontent _ _ ihInner ihMarks =>
    have hinner : ∀ running rest, Mark.firstFailure? running (inner ++ rest) =
        Mark.firstFailure? running rest := ihInner rfl
    have hmarks := ihMarks rfl
    cases ending with
    | none =>
      intro running rest
      rw [List.append_assoc, hinner]
      exact hmarks running rest
    | some failure =>
      obtain ⟨calls, m, after, hfails, hfailure⟩ := hmarks
      exact ⟨calls, m, after, hfails.behind fun running rest => hinner _ _, hfailure⟩
  | broken hcontent _ hrest ih _ =>
    obtain ⟨rfl, rfl⟩ := hrest.of_pending
    obtain ⟨calls, m, after, hfails, hfailure⟩ := ih rfl
    exact ⟨calls, m, _, hfails.broken hcontent _, hfailure⟩
  | passedOn => exact absurd hstage (Option.some_ne_none _)

end Course

end Shortcode
