import Mathlib.Data.List.TakeWhile
import Shortcode.CommandLine
import Shortcode.Proofs.Descent

/-!
# Files of one run

A run renders its files with one registry, one policy and one output.  With settings whose templates
can be read, nothing but the log is changed by a rendering, and no handler can read the log.  So
each file is rendered as if it were the only one, and the run ends at the first file that is no
text.

    renderEach m r files input u =
      ((files.takeWhile m.reads).flatMap (m.rendering r w),
        (files.find? (!m.reads ·)).bind m.problem?)                                (renderEach_eq)
-/

namespace Shortcode

variable {σ : Type}

/-! ## The log -/

/-- What is in the log does not show in what a text is rendered as. -/
theorem Renderer.value?_renderWithin_of_covers {w v : World σ} (h : w.Covers v) (r : Registry)
    (text : Text) (depth : Nat) : ((standard r).renderWithin depth text w).value? =
      ((standard r).renderWithin depth text v).value? := by
  have hthorough : ∀ {u : World σ}, u.Covers v → ((standard r).renderWithin depth text u).value? =
      (thoroughWithin depth (standard r) text v).value? := fun h =>
    (renders_thoroughWithin depth r text h).value?_eq
  rw [hthorough h, hthorough (.refl v)]

namespace CommandLine

variable {m : Machine} {r : Registry} {w u : World Unit} {files : List Text}

/-! ## Arguments -/

namespace Options

/-- Arguments that give these options. -/
def args (program : Text) (o : Options) : List Text :=
  program :: ((o.settings.map fun path => [Text.ofString "--config", path]).getD [] ++ o.inputs)

/-- Names that do not start with a dash are inputs. -/
theorem read_files (o : Options) (h : ∀ path ∈ files, path.head? ≠ some Byte.hyphen) :
    o.read files = .ok { o with inputs := o.inputs ++ files } := by
  induction files generalizing o with
  | nil => rw [read, List.append_nil]
  | cons path rest ih =>
    obtain ⟨hpath, hrest⟩ := List.forall_mem_cons.1 h
    have hne : ∀ {option : Text}, option.head? = some Byte.hyphen → path ≠ option := by
      rintro option hoption rfl
      exact hpath hoption
    rw [read.eq_def]
    dsimp only
    rw [if_neg (not_or.2 ⟨hne rfl, hne rfl⟩), if_neg (not_or.2 ⟨hne rfl, hne rfl⟩),
      if_neg fun hdash => hpath hdash.1, ih _ hrest]
    simp only [List.append_assoc, List.singleton_append]

theorem ofArgs_args (program : Text) (o : Options)
    (h : ∀ path ∈ o.inputs, path.head? ≠ some Byte.hyphen) : ofArgs (o.args program) = .ok o := by
  obtain ⟨settings, files⟩ := o
  cases settings with
  | none => exact read_files ⟨none, []⟩ h
  | some path =>
    have hread : read ⟨none, []⟩ (Text.ofString "--config" :: path :: files) =
        read ⟨some path, []⟩ files := by
      rw [read, if_pos (.inl rfl)]
    exact hread.trans (read_files ⟨some path, []⟩ h)

end Options

/-! ## Files one after the other -/

namespace Machine

/-- Whether the file at a path is there and holds text. -/
def reads (m : Machine) (path : Text) : Bool := (m.readFile.text path).toBool

/-- What the file at a path is rendered as; nothing if it cannot be read. -/
def rendering (m : Machine) (r : Registry) (w : World Unit) (path : Text) : Text :=
  match m.readFile.text path with
  | .ok t => (((Renderer.standard r).render t w).value?).getD []
  | .error _ => []

/-- What is wrong with the file at a path, if it cannot be read. -/
def problem? (m : Machine) (path : Text) : Option Problem :=
  match m.readFile.text path with
  | .ok _ => none
  | .error e =>
    some ⟨Text.ofString "Failed to read '" ++ path ++ Text.ofString "'", [e.message]⟩

end Machine

theorem Machine.exists_problem? {path : Text} (h : m.reads path = false) :
    ∃ cause, m.readFile.text path = .error cause ∧ m.problem? path =
      some ⟨Text.ofString "Failed to read '" ++ path ++ Text.ofString "'", [cause.message]⟩ := by
  rw [reads] at h
  rw [problem?]
  cases hread : m.readFile.text path with
  | ok t =>
    rw [hread] at h
    cases h
  | error cause => exact ⟨cause, rfl, rfl⟩

/-- Files are rendered as they are in the world before the first one, whatever was rendered in
between, up to the first one that cannot be read. -/
theorem renderEach_eq (hw : w.OnlyTemplates r)
    (hfiles : ∀ path ∈ files, path.head? ≠ some Byte.hyphen) (input : Text) (hu : u.Covers w) :
    renderEach m r files input u =
      ((files.takeWhile m.reads).flatMap (m.rendering r w),
        (files.find? (!m.reads ·)).bind m.problem?) := by
  induction files generalizing u with
  | nil => rfl
  | cons path rest ih =>
    obtain ⟨hpath, hrest⟩ := List.forall_mem_cons.1 hfiles
    have hdash : path ≠ standardInput := by
      rintro rfl
      exact hpath rfl
    rw [renderEach, readInput, if_neg hdash]
    cases hread : m.readFile.text path with
    | error e =>
      have hnot : m.reads path = false := by rw [Machine.reads, hread]; rfl
      simp [hnot, Machine.problem?, hread]
    | ok t =>
      have hreads : m.reads path = true := by rw [Machine.reads, hread]; rfl
      obtain ⟨out, v, hout, hv⟩ := Renderer.exists_renderWithin_templates
        (hw.of_tables hu.tables) t.length.lt_succ_self
      have hsame := Renderer.value?_renderWithin_of_covers hu r t (t.length + 1)
      rw [hout] at hsame
      have hrendering : m.rendering r w path = out := by
        rw [Machine.rendering, hread]
        show ((Renderer.renderWithin (t.length + 1) (.standard r) t w).value?).getD [] = out
        rw [← hsame]
        rfl
      have hrender : (Renderer.standard r).render t u = .ok out v := hout
      simp only [hrender, ih hrest (hv.trans hu)]
      simp [hreads, hrendering]

/-! ## Runs -/

/-- The report on what was printed and on the problem that ended the run. -/
def Report.ofRendered : Text × Option Problem → Report
  | (out, none) => ⟨0, out, []⟩
  | (out, some p) => ⟨1, out, p.text⟩

variable {args : List Text} {o : Options} {s : Settings}

theorem run_eq (hargs : Options.ofArgs args = .ok o) (hsettings : settingsOf m o = .ok s) :
    run m args = .ofRendered (render m o s) := by
  rw [run, hargs]
  simp only [hsettings]
  rcases render m o s with ⟨out, _ | p⟩ <;> rfl

/-- With templates that can be read, all handlers of a run fill templates, whatever its files
are. -/
theorem exists_render_eq
    (hbodies : ∀ e ∈ s.handlers.entries,
      ∃ template, Settings.body m.readFile e.1 e.2 = .ok template) :
    ∃ (r : Registry) (w : World Unit), w.OnlyTemplates r ∧
      ∀ o : Options, render m o s = renderEach m r (inputsOf o) m.input w := by
  have hnew : ∀ tag, (({ World.initial () with policy := s.policy } : World Unit).sharedRegistry
      s.registry).2.handler?
        (({ World.initial () with policy := s.policy } : World Unit).sharedRegistry
          s.registry).1 tag = none :=
    World.handler?_newRegistry { World.initial () with policy := s.policy } s.registry
  simp only [render]
  generalize ({ World.initial () with policy := s.policy } : World Unit).sharedRegistry s.registry =
    shared at hnew ⊢
  obtain ⟨r, w⟩ := shared
  have htemplates := World.onlyTemplates_registerAll hnew m.readFile s
  have hfilled := Settings.registerEach_of_bodies hbodies r w
  rw [← Settings.registerAll] at hfilled
  generalize s.registerAll m.readFile r w = filled at htemplates hfilled ⊢
  obtain ⟨result, w⟩ := filled
  cases hfilled
  exact ⟨r, w, htemplates, fun _ => rfl⟩

/-- **Each file is rendered as if it were the only one, up to the first that cannot be read.** -/
theorem run_files (m : Machine) {args : List Text} {o : Options} {s : Settings}
    (hargs : Options.ofArgs args = .ok o) (hsettings : settingsOf m o = .ok s)
    (hbodies : ∀ e ∈ s.handlers.entries,
      ∃ template, Settings.body m.readFile e.1 e.2 = .ok template)
    (hinputs : o.inputs ≠ []) (hfiles : ∀ path ∈ o.inputs, path.head? ≠ some Byte.hyphen) :
    let alone := fun path => run m (Options.args (programName args) { o with inputs := [path] })
    let front := o.inputs.takeWhile m.reads
    (run m args).output = front.flatMap (fun path => (alone path).output) ∧
      (∀ path ∈ front, alone path = ⟨0, (alone path).output, []⟩) ∧
      ((run m args).exitCode = 0 ↔ ∀ path ∈ o.inputs, m.reads path = true) ∧
      ∀ path rest, o.inputs = front ++ path :: rest → ∃ cause,
        m.readFile.text path = .error cause ∧ (run m args).exitCode = 1 ∧
        (run m args).errors = Problem.text
          ⟨Text.ofString "Failed to read '" ++ path ++ Text.ofString "'", [cause.message]⟩ := by
  intro alone front
  obtain ⟨r, w, hw, hrender⟩ := exists_render_eq (m := m) hbodies
  have hrun : run m args = .ofRendered (front.flatMap (m.rendering r w),
      (o.inputs.find? (!m.reads ·)).bind m.problem?) := by
    rw [run_eq hargs hsettings, hrender, inputsOf, if_neg (by simpa using hinputs),
      renderEach_eq hw hfiles m.input (.refl w)]
  have halone : ∀ path ∈ front, alone path = ⟨0, m.rendering r w path, []⟩ := by
    intro path hpath
    have hreads : m.reads path = true := List.mem_takeWhile_imp hpath
    have hname : ∀ path' ∈ [path], path'.head? ≠ some Byte.hyphen :=
      List.forall_mem_singleton.2 (hfiles path (List.takeWhile_subset _ hpath))
    have hone := Options.ofArgs_args (programName args) { o with inputs := [path] } hname
    rw [show alone path = _ from run_eq hone hsettings, hrender]
    show Report.ofRendered (renderEach m r [path] m.input w) = _
    rw [renderEach_eq hw hname m.input (.refl w)]
    simp [hreads, Report.ofRendered]
  have houtput : front.flatMap (m.rendering r w) = front.flatMap fun path => (alone path).output :=
    List.flatMap_congr fun path hpath => by rw [halone path hpath]
  refine ⟨?_, fun path hpath => by rw [halone path hpath], ?_, ?_⟩
  · rw [hrun, ← houtput]
    rcases (o.inputs.find? (!m.reads ·)).bind m.problem? with _ | p <;> rfl
  · rw [hrun]
    cases hfind : o.inputs.find? (!m.reads ·) with
    | none => simpa [Report.ofRendered] using hfind
    | some path =>
      have hnot : m.reads path = false := by simpa using List.find?_some hfind
      obtain ⟨cause, -, hproblem⟩ := m.exists_problem? hnot
      simp only [Option.bind_some, hproblem, Report.ofRendered]
      exact iff_of_false nofun fun hall =>
        Bool.false_ne_true (hnot.symm.trans (hall path (List.mem_of_find?_eq_some hfind)))
  · intro path rest hsplit
    have hdrop : o.inputs.dropWhile m.reads = path :: rest :=
      List.append_cancel_left (List.takeWhile_append_dropWhile.trans hsplit)
    have hfind : o.inputs.find? (!m.reads ·) = some path := by
      simpa [hdrop] using List.find?_not_eq_head?_dropWhile m.reads o.inputs
    have hnot : m.reads path = false := by simpa using List.find?_some hfind
    obtain ⟨cause, hcause, hproblem⟩ := m.exists_problem? hnot
    rw [hrun, hfind, Option.bind_some, hproblem]
    exact ⟨cause, hcause, rfl, rfl⟩

/-- Two files are rendered, the third one is no text, and the last one is not looked at. -/
theorem run_files_midway :
    (let m : Machine := ⟨fun path =>
        if path = Text.ofString "c" then .ok (Text.ofString
          "error_behavior = \"warn\"\n[handlers]\nb.template = \"<b>\x7bcontent\x7d</b>\"\n" ++
            Text.ofString "b.placement = \"after\"\ni.template = \"<i>\x7bcontent\x7d</i>\"")
        else if path = Text.ofString "one" then .ok (Text.ofString "<p>[b]x [i]y[/i][/b]</p>")
        else if path = Text.ofString "two" then .ok (Text.ofString "[[b]][c]")
        else if path = Text.ofString "three" then .ok [0xFF]
        else .error .notFound, [], ⟨[]⟩⟩;
    let args := ["cli", "one", "--config", "c", "two", "three", "one"].map Text.ofString;
    let o : Options := ⟨some (Text.ofString "c"), ["one", "two", "three", "one"].map Text.ofString⟩;
    let alone := fun path => run m (Options.args (programName args) { o with inputs := [path] });
    Options.ofArgs args = .ok o ∧ o.inputs ≠ [] ∧
      (∀ path ∈ o.inputs, path.head? ≠ some Byte.hyphen) ∧
      (∃ s, settingsOf m o = .ok s ∧ ∀ e ∈ s.handlers.entries,
        ∃ template, Settings.body m.readFile e.1 e.2 = .ok template) ∧
      (alone (Text.ofString "one")).output = Text.ofString "<p></p><b>x <i>y</i></b>" ∧
      (alone (Text.ofString "two")).output =
        Text.ofString "[b]<strong class=\"warning\">[c]</strong>" ∧
      (run m args).output = (alone (Text.ofString "one")).output ++
        (alone (Text.ofString "two")).output ∧
      (run m args).exitCode = 1) := by
  intro m args o alone
  have hargs : Options.ofArgs args = .ok o := by decide +kernel
  have hfiles : ∀ path ∈ o.inputs, path.head? ≠ some Byte.hyphen := by decide +kernel
  have hall : ((settingsOf m o).toOption.any fun s =>
      s.handlers.entries.all fun e => (Settings.body m.readFile e.1 e.2).toBool) = true := by
    decide +kernel
  obtain ⟨s, hsettings, hbodies⟩ : ∃ s, settingsOf m o = .ok s ∧ ∀ e ∈ s.handlers.entries,
      ∃ template, Settings.body m.readFile e.1 e.2 = .ok template := by
    cases hs : settingsOf m o with
    | error p =>
      rw [hs] at hall
      cases hall
    | ok s =>
      rw [hs] at hall
      refine ⟨s, rfl, fun e he => ?_⟩
      have hbody := List.all_eq_true.1 hall e he
      cases htemplate : Settings.body m.readFile e.1 e.2 with
      | error _ =>
        rw [htemplate] at hbody
        cases hbody
      | ok template => exact ⟨template, rfl⟩
  obtain ⟨houtput, -, -, herror⟩ :=
    run_files m hargs hsettings hbodies (List.cons_ne_nil _ _) hfiles
  have hfront : o.inputs.takeWhile m.reads = ["one", "two"].map Text.ofString := by decide +kernel
  obtain ⟨-, -, hexit, -⟩ :=
    herror (Text.ofString "three") [Text.ofString "one"] (by rw [hfront]; rfl)
  rw [hfront] at houtput
  refine ⟨hargs, List.cons_ne_nil _ _, hfiles, ⟨s, hsettings, hbodies⟩, by decide +kernel,
    by decide +kernel, houtput.trans ?_, hexit⟩
  rw [List.map_cons, List.map_singleton, List.flatMap_cons, List.flatMap_singleton]

end CommandLine

end Shortcode
