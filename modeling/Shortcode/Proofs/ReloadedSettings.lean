import Shortcode.Proofs.SavedSettings
import Shortcode.Proofs.ValidDocuments

/-!
# Settings that are loaded, saved and loaded again

A file that is read holds strings, so no text of its document is refused for being none.  What is
loaded from it are settings whose paths are strings, which can be saved and loaded again.  A path is
expanded each time it is loaded and saved as it was expanded, so the second time the expanded path
is expanded: settings come back as they were iff each path stands for itself.

    string? w = none ↔ ∀ s, w ≠ .string s                                     (strings_of_file)
    c.write = .ok text → read' path' = .ok text →
      load read' env path' = .ok (some (c.expandPaths env))                         (load_again)
-/

namespace Shortcode

open Toml (Value)

namespace Settings

/-! ## Strings of a document -/

theorem string?_eq_none_iff {v : Value} (hv : v.IsValid) :
    string? v = none ↔ ∀ t, v ≠ .string t := by
  cases hv with
  | @string t ht =>
    have hread : string? (.string t) = some ⟨t, ht⟩ := string?_valid ⟨t, ht⟩
    rw [hread]
    exact iff_of_false nofun fun h => h t rfl
  | _ => exact iff_of_true rfl nofun

theorem readSpecs_eq_none_iff {entries : List (Text × Value)} :
    entries.mapM (fun e => (spec? e.2).map fun spec => (e.1, spec)) = none ↔
      ∃ e ∈ entries, spec? e.2 = none := by
  induction entries with
  | nil => simp
  | cons e entries ih =>
    rw [List.exists_mem_cons_iff, ← ih, List.mapM_cons]
    cases spec? e.2 with
    | none => simp
    | some spec => simp [← Option.eq_none_iff_forall_ne_some]

theorem handlers?_eq_none_iff {kind : Toml.TableKind} {entries : List (Text × Value)}
    (h : ∀ e ∈ entries, e.1.IsValid) :
    handlers? (.table kind entries) = none ↔ ∃ e ∈ entries, spec? e.2 = none := by
  rw [← readSpecs_eq_none_iff]
  cases hspecs : entries.mapM (fun e => (spec? e.2).map fun spec => (e.1, spec)) with
  | none =>
    rw [handlers?, hspecs]
    exact iff_of_true rfl rfl
  | some specs =>
    have hvalid : ∀ tag ∈ (TagMap.ofList specs).names, tag.IsValid := by
      intro tag htag
      obtain ⟨e, he, rfl⟩ := List.mem_map.1 htag
      obtain ⟨e', he', htag, -⟩ := exists_of_readSpecs hspecs e (TagMap.mem_ofList he)
      exact htag ▸ h e' he'
    rw [handlers?, hspecs]
    show (if h : _ then _ else _) = none ↔ _
    rw [dif_pos hvalid]
    exact iff_of_false (Option.some_ne_none _) (Option.some_ne_none _)

/-- **All strings in a file that is read are kept**: what stands in its document is read as a string
iff it is one, and a table is read as handlers iff each of its values is read as one. -/
theorem strings_of_file {bytes t : Text} (hfile : checkText bytes = .ok t) {v w : Value}
    (hv : Toml.document? t = some v) (hw : v.Holds w) :
    (string? w = none ↔ ∀ s, w ≠ .string s) ∧
      ∀ kind entries, w = .table kind entries →
        (handlers? w = none ↔ ∃ e ∈ entries, spec? e.2 = none) := by
  have hvalid := (Toml.isValid_of_document? (isValid_of_checkText hfile).2 hv).of_holds hw
  refine ⟨string?_eq_none_iff hvalid, ?_⟩
  rintro kind entries rfl
  exact handlers?_eq_none_iff fun e he => (Toml.Value.isValid_table_iff.1 hvalid e he).1

/-! ## Paths that are expanded again -/

theorem sameSpec_expand_iff (spec : TemplateSpec) (env : Environment) :
    sameSpec spec { spec with file := spec.file.map (PathExpansion.expand env) } = true ↔
      ∀ p ∈ spec.file, Path.sameAs p (PathExpansion.expand env p) = true := by
  cases hfile : spec.file <;> simp [sameSpec, hfile]

/-- Settings are the same with their paths expanded iff each path leads to the same place. -/
theorem sameAs_expandPaths_iff (s : Settings) (env : Environment) :
    s.sameAs (s.expandPaths env) = true ↔
      ∀ p ∈ s.files, Path.sameAs p (PathExpansion.expand env p) = true := by
  have hnames : (s.expandPaths env).handlers.names = s.handlers.names :=
    s.handlers.names_mapValues _
  have hspecs : (s.handlers.entries.zip (s.expandPaths env).handlers.entries).all
        (fun p => sameSpec p.1.2 p.2.2) = true ↔
      ∀ e ∈ s.handlers.entries, ∀ p ∈ e.2.file,
        Path.sameAs p (PathExpansion.expand env p) = true := by
    have hzip : s.handlers.entries.zip (s.expandPaths env).handlers.entries =
        s.handlers.entries.map fun e =>
          (e, (e.1, { e.2 with file := e.2.file.map (PathExpansion.expand env) })) := by
      conv_lhs => rw [← List.map_id s.handlers.entries]
      exact List.zip_map' ..
    rw [hzip, List.all_map, List.all_eq_true]
    exact forall₂_congr fun e _ => sameSpec_expand_iff e.2 env
  rw [sameAs, hnames, forall_mem_files, ← hspecs]
  simp [expandPaths]

theorem expandPaths_eq_self {s : Settings} {env : Environment}
    (h : ∀ p ∈ s.files, PathExpansion.expand env p = p) : s.expandPaths env = s := by
  have hentries : (s.expandPaths env).handlers.entries = s.handlers.entries := by
    refine (List.map_congr_left fun e he => ?_).trans (List.map_id _)
    have hfile : e.2.file.map (PathExpansion.expand env) = e.2.file := by
      cases hfile : e.2.file with
      | none => rfl
      | some p => exact congrArg some (h p (List.mem_filterMap.2 ⟨e, he, hfile⟩))
    show (e.1, { e.2 with file := e.2.file.map (PathExpansion.expand env) }) = e
    rw [hfile]
  obtain ⟨policy, registry, ⟨entries, sorted⟩, _⟩ := s
  rw [expandPaths, Settings.mk.injEq, TagMap.mk.injEq]
  exact ⟨rfl, rfl, hentries⟩

/-- **Settings that are loaded, saved and loaded again have their paths expanded twice**: they come
back as the same settings iff each path that was loaded leads where its own expansion does, and they
come back as they were if no path holds a dollar or starts with a tilde. -/
theorem load_again {env : Environment} {read : FileReader} {path : Text} {c : Settings}
    (hload : load read env path = .ok (some c)) :
    (∃ text, c.write = .ok text ∧ ∀ (read' : FileReader) (path' : Text), read' path' = .ok text →
      load read' env path' = .ok (some (c.expandPaths env))) ∧
    (c.sameAs (c.expandPaths env) = true ↔
      ∀ p ∈ c.files, Path.sameAs p (PathExpansion.expand env p) = true) ∧
    ((∀ p ∈ c.files, Byte.dollar ∉ p ∧ p.head? ≠ some Byte.tilde) → c.expandPaths env = c) := by
  have hwrite := write_of_files (isValid_of_load hload)
  exact ⟨⟨_, hwrite, fun read' path' hread => load_of_write hwrite hread env⟩,
    c.sameAs_expandPaths_iff env, fun h => expandPaths_eq_self fun p hp =>
      PathExpansion.expand_of_plain (h p hp).1 (h p hp).2⟩

theorem load_eq_of_toOption {read : FileReader} {env : Environment} {path : Text} {c : Settings}
    (h : (load read env path).toOption.join = some c) : load read env path = .ok (some c) := by
  cases hload : load read env path with
  | error e =>
    rw [hload] at h
    cases h
  | ok found =>
    rw [hload] at h
    exact congrArg Except.ok h

/-- The environment with a home directory and nothing else. -/
def homeAlone : Environment := ⟨[(Text.ofString "HOME", Text.ofString "/home/oracle")]⟩

/-- A handler whose file is written with two dollars. -/
def dollarsText : Text := Text.ofString "[handlers.a]\nfile = \"$$HOME/x\"\n"

/-- The two dollars are one in the path that is saved, so it is expanded again. -/
theorem load_again_dollars : ∃ c text,
    load (fun _ => .ok dollarsText) homeAlone [] = .ok (some c) ∧
    c.files = [Text.ofString "$HOME/x"] ∧ c.write = .ok text ∧
    load (fun _ => .ok text) homeAlone [] = .ok (some (c.expandPaths homeAlone)) ∧
    (c.expandPaths homeAlone).files = [Text.ofString "/home/oracle/x"] := by
  have hfiles : (load (fun _ => .ok dollarsText) homeAlone []).toOption.join.map
      (fun c => (c.files, (c.expandPaths homeAlone).files)) =
        some ([Text.ofString "$HOME/x"], [Text.ofString "/home/oracle/x"]) := by
    decide +kernel
  obtain ⟨c, hc, heq⟩ := Option.map_eq_some_iff.1 hfiles
  obtain ⟨hfirst, hsecond⟩ := Prod.mk.inj heq
  have hload := load_eq_of_toOption hc
  obtain ⟨⟨text, hwrite, hagain⟩, -⟩ := load_again hload
  exact ⟨c, text, hload, hfirst, hwrite, hagain (fun _ => .ok text) [] rfl, hsecond⟩

/-- Settings are not always loaded as they were saved. -/
theorem not_load_again_same : ¬ ∀ c,
    load (fun _ => .ok dollarsText) homeAlone [] = .ok (some c) →
      ∃ text c', c.write = .ok text ∧
        load (fun _ => .ok text) homeAlone [] = .ok (some c') ∧ c.sameAs c' = true := by
  intro hsame
  have hsome : (load (fun _ => .ok dollarsText) homeAlone []).toOption.join.isSome = true := by
    decide +kernel
  have hdiffer : (load (fun _ => .ok dollarsText) homeAlone []).toOption.join.all (fun c =>
      c.write.toOption.all fun text =>
        (load (fun _ => .ok text) homeAlone []).toOption.join.all fun c' =>
          !c.sameAs c') = true := by
    decide +kernel
  obtain ⟨c, hc⟩ := Option.isSome_iff_exists.1 hsome
  obtain ⟨text, c', hwrite, hagain, hsameAs⟩ := hsame c (load_eq_of_toOption hc)
  rw [hc, Option.all_some, hwrite] at hdiffer
  have hnot : (load (fun _ => .ok text) homeAlone []).toOption.join.all (fun c' => !c.sameAs c') =
      true := hdiffer
  rw [hagain] at hnot
  have hdifferent : (!c.sameAs c') = true := hnot
  rw [hsameAs] at hdifferent
  cases hdifferent

end Settings

end Shortcode
