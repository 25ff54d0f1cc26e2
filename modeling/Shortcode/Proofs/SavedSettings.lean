import Shortcode.Proofs.ExpandedPaths
import Shortcode.Proofs.TomlDocuments
import Shortcode.Settings

/-!
# Settings that are saved are loaded again

Settings can be saved iff the paths of their template files are strings.  The text that they are
saved as is then read as the settings that were saved: with their policy, registry and handlers, and
of each handler just the parts that it has.  So loading the file gives these settings, with the
paths expanded.  Settings with a path that is no string are not loaded from any file.

    s.write = .ok text → ofText? text = some s                                   (ofText?_of_write)
    s.write = .ok text → read path = .ok text → load read env path = .ok (some …)    (load_saved)
-/

namespace Shortcode

open Toml (Value Section strings tables)

/-! ## Maps -/

namespace TagMap

variable {α : Type}

/-- An entry whose name comes last is put at the end. -/
theorem putEntry_of_lt {name : Text} {value : α} {es : List (Text × α)}
    (h : ∀ e ∈ es, e.1 < name) : putEntry name value es = es ++ [(name, value)] := by
  induction es with
  | nil => rfl
  | cons e es ih =>
    obtain ⟨he, hes⟩ := List.forall_mem_cons.1 h
    rw [putEntry, if_neg (List.lt_asymm he), if_pos he, ih hes]
    rfl

/-- Inserting the entries of a map from left to right gives the map. -/
theorem ofList_entries (m : TagMap α) : ofList m.entries = m := by
  have hfold : ∀ (es : List (Text × α)) (m : TagMap α),
      (m.entries ++ es).Pairwise (fun a b => a.1 < b.1) →
        (es.foldl (fun m e => m.insert e.1 e.2) m).entries = m.entries ++ es := by
    intro es
    induction es with
    | nil => exact fun m _ => (List.append_nil _).symm
    | cons e es ih =>
      intro m h
      have hinsert : (m.insert e.1 e.2).entries = m.entries ++ [e] :=
        putEntry_of_lt fun x hx => (List.pairwise_append.1 h).2.2 x hx e List.mem_cons_self
      have happend : m.entries ++ e :: es = (m.insert e.1 e.2).entries ++ es := by
        rw [hinsert, List.append_assoc, List.singleton_append]
      rw [List.foldl_cons, ih _ (happend ▸ h), ← happend]
  have hentries : (ofList m.entries).entries = m.entries := hfold m.entries empty m.sorted
  obtain ⟨es, hes⟩ := m
  exact TagMap.mk.injEq .. ▸ hentries

theorem mem_ofList {es : List (Text × α)} {e : Text × α} (h : e ∈ (ofList es).entries) :
    e ∈ es := by
  have hfold : ∀ (es : List (Text × α)) (m : TagMap α),
      e ∈ (es.foldl (fun m e => m.insert e.1 e.2) m).entries → e ∈ m.entries ∨ e ∈ es := by
    intro es
    induction es with
    | nil => exact fun m hm => .inl hm
    | cons first es ih =>
      intro m hm
      rcases ih _ hm with hm | hm
      · rcases mem_putEntry hm with rfl | hm
        · exact .inr List.mem_cons_self
        · exact .inl hm
      · exact .inr (List.mem_cons_of_mem _ hm)
  exact (hfold es empty h).resolve_left List.not_mem_nil

end TagMap

namespace Settings

/-! ## Handlers -/

theorem lookup_strings (ps : List (Text × Text)) (key : Text) :
    (strings ps).lookup key = (ps.lookup key).map .string := by
  induction ps with
  | nil => rfl
  | cons p ps ih =>
    rw [strings, List.map_cons, List.lookup_cons, List.lookup_cons, ← strings, ih]
    cases key == p.1 <;> rfl

theorem othersReadable_strings (known : List Text) (ps : List (Text × Text)) :
    othersReadable known (strings ps) = true := by
  refine List.all_eq_true.2 fun e he => ?_
  obtain ⟨p, -, rfl⟩ := List.mem_map.1 he
  exact Bool.or_true _

theorem string?_valid (t : ValidText) : string? (.string t.1) = some t := dif_pos t.2

theorem optional?_string (t : Option ValidText) :
    optional? string? ((t.map (·.1)).map .string) = some t := by
  cases t with
  | none => rfl
  | some t => exact congrArg (Option.map some) (string?_valid t)

theorem optional?_path {path : Option Text} (h : ∀ p ∈ path, p.IsValid) :
    optional? path? (path.map .string) = some path := by
  cases path with
  | none => rfl
  | some p =>
    have hp : string? (.string p) = some ⟨p, h p rfl⟩ := string?_valid ⟨p, h p rfl⟩
    rw [Option.map_some, optional?, path?, hp]
    rfl

theorem placement?_name (p : Placement) : placement? (.string p.name) = some p := by
  cases p <;> decide

theorem policy?_name (p : Policy) : policy? (.string p.name) = some p := by
  cases p <;> decide

theorem optional?_placement (p : Option Placement) :
    optional? placement? ((p.map Placement.name).map .string) = some p := by
  cases p with
  | none => rfl
  | some p => exact congrArg (Option.map some) (placement?_name p)

/-- What stands under the keys of a handler. -/
theorem lookup_specPairs (spec : TemplateSpec) :
    (specPairs spec).lookup templateKey = spec.template.map (·.1) ∧
      (specPairs spec).lookup fileKey = spec.file ∧
      (specPairs spec).lookup placementKey = spec.placement.map Placement.name := by
  obtain ⟨template, file, placement⟩ := spec
  have htf : (fileKey == templateKey) = false ∧ (templateKey == fileKey) = false := by decide
  have htp : (placementKey == templateKey) = false ∧ (templateKey == placementKey) = false := by
    decide
  have hfp : (placementKey == fileKey) = false ∧ (fileKey == placementKey) = false := by decide
  cases template <;> cases file <;> cases placement <;>
    simp [specPairs, List.lookup_cons, htf, htp, hfp]

/-- A handler is read as it was written. -/
theorem spec?_strings {spec : TemplateSpec} (h : ∀ p ∈ spec.file, p.IsValid) :
    spec? (.table .header (strings (specPairs spec))) = some spec := by
  obtain ⟨htemplate, hfile, hplacement⟩ := lookup_specPairs spec
  rw [spec?, othersReadable_strings, if_pos rfl, lookup_strings, lookup_strings, lookup_strings,
    htemplate, hfile, hplacement, optional?_string, optional?_path h, optional?_placement]
  rfl

/-- The handlers with the pairs that they are written as. -/
def handlerPairs (s : Settings) : List (Text × List (Text × Text)) :=
  s.handlers.entries.map fun e => (e.1, specPairs e.2)

theorem nodup_specPairs (spec : TemplateSpec) : ((specPairs spec).map (·.1)).Nodup := by
  have hkeys : [templateKey, fileKey, placementKey].Nodup := by decide
  refine hkeys.sublist ?_
  obtain ⟨template, file, placement⟩ := spec
  cases template <;> cases file <;> cases placement <;> simp [specPairs]

theorem distinct_handlerPairs (s : Settings) : Toml.Distinct s.handlerPairs where
  names := by
    have hnames : s.handlerPairs.map (·.1) = s.handlers.names := by
      rw [handlerPairs, List.map_map]
      rfl
    rw [hnames]
    refine (List.pairwise_map.2 s.handlers.sorted).imp fun hlt heq => ?_
    rw [heq] at hlt
    exact List.lt_irrefl _ hlt
  keys := by
    intro h hh
    obtain ⟨e, -, rfl⟩ := List.mem_map.1 hh
    exact nodup_specPairs e.2

theorem forall_mem_files {s : Settings} {P : Text → Prop} :
    (∀ p ∈ s.files, P p) ↔ ∀ e ∈ s.handlers.entries, ∀ p ∈ e.2.file, P p := by
  simp only [files, List.mem_filterMap, forall_exists_index, and_imp, Option.mem_def]
  exact ⟨fun h e he p hp => h p e he hp, fun h p e he hp => h e he p hp⟩

/-- Handlers are read one by one, each under its tag. -/
theorem readSpecs_eq_some_iff {entries : List (Text × Value)}
    {specs : List (Text × TemplateSpec)} :
    entries.mapM (fun e => (spec? e.2).map fun spec => (e.1, spec)) = some specs ↔
      List.Forall₂ (fun e read => read.1 = e.1 ∧ spec? e.2 = some read.2) entries specs := by
  induction entries generalizing specs with
  | nil =>
    rw [List.mapM_nil, List.forall₂_nil_left_iff]
    exact Option.some_inj.trans eq_comm
  | cons e entries ih =>
    rw [List.mapM_cons, List.forall₂_cons_left_iff]
    constructor
    · intro h
      obtain ⟨first, hfirst, h⟩ := Option.bind_eq_some_iff.1 h
      obtain ⟨rest, hrest, heq⟩ := Option.bind_eq_some_iff.1 h
      obtain ⟨spec, hspec, rfl⟩ := Option.map_eq_some_iff.1 hfirst
      cases heq
      exact ⟨_, rest, ⟨rfl, hspec⟩, ih.1 hrest, rfl⟩
    · rintro ⟨⟨tag, spec⟩, rest, ⟨rfl, hspec⟩, hrest, rfl⟩
      rw [hspec, ih.2 hrest]
      rfl

/-- Each handler that is read stands in the table. -/
theorem exists_of_readSpecs {entries : List (Text × Value)} {specs : List (Text × TemplateSpec)}
    (h : entries.mapM (fun e => (spec? e.2).map fun spec => (e.1, spec)) = some specs) :
    ∀ read ∈ specs, ∃ e ∈ entries, read.1 = e.1 ∧ spec? e.2 = some read.2 := by
  have hall := readSpecs_eq_some_iff.1 h
  intro read hread
  obtain ⟨i, hi, rfl⟩ := List.getElem_of_mem hread
  have hi' : i < entries.length := hall.length_eq ▸ hi
  exact ⟨entries[i], List.getElem_mem hi', hall.get hi' hi⟩

/-- Tables that are read as the handlers. -/
theorem handlers?_of_specs {s : Settings} {kind : Toml.TableKind} {entries : List (Text × Value)}
    (h : entries.mapM (fun e => (spec? e.2).map fun spec => (e.1, spec)) =
      some s.handlers.entries) :
    handlers? (.table kind entries) = some ⟨s.handlers, s.tags_valid⟩ := by
  have htags : ∀ tag ∈ (TagMap.ofList s.handlers.entries).names, tag.IsValid := by
    rw [s.handlers.ofList_entries]
    exact s.tags_valid
  rw [handlers?, h]
  show (if h : _ then _ else _) = _
  rw [dif_pos htags]
  exact congrArg some (Subtype.ext s.handlers.ofList_entries)

theorem handlers?_tables {s : Settings} (hfiles : ∀ p ∈ s.files, p.IsValid) :
    handlers? (.table .implicit (tables s.handlerPairs)) = some ⟨s.handlers, s.tags_valid⟩ := by
  refine handlers?_of_specs (readSpecs_eq_some_iff.2 ?_)
  rw [tables, handlerPairs, List.map_map, List.forall₂_map_left_iff, List.forall₂_same]
  exact fun e he => ⟨rfl, spec?_strings (forall_mem_files.1 hfiles e he)⟩

/-! ## Documents -/

/-- The pairs in front of the handlers. -/
def frontPairs (s : Settings) : List (Text × Text) :=
  [(errorBehaviorKey, s.policy.name), (registryKey, s.registry)]

theorem sections_eq (s : Settings) (h : s.handlers.isEmpty = false) :
    s.sections = ⟨[], s.frontPairs⟩ :: s.handlerPairs.map (Section.inGroup handlersKey) := by
  rw [sections, h, handlerPairs, List.map_map]
  rfl

/-- The settings in a document with these handlers. -/
theorem ofValue?_front (s : Settings) {group : Value}
    (hread : handlers? group = some ⟨s.handlers, s.tags_valid⟩) :
    ofValue? (.table .header (strings s.frontPairs ++ [(handlersKey, group)])) = some s := by
  have hreadable : othersReadable [errorBehaviorKey, registryKey, handlersKey]
      (strings s.frontPairs ++ [(handlersKey, group)]) = true := by
    have hknown : [errorBehaviorKey, registryKey, handlersKey].contains handlersKey = true := by
      decide
    have hfront := othersReadable_strings [errorBehaviorKey, registryKey, handlersKey] s.frontPairs
    rw [othersReadable] at hfront ⊢
    rw [List.all_append, hfront, List.all_cons, hknown]
    rfl
  have hbehavior : (strings s.frontPairs ++ [(handlersKey, group)]).lookup errorBehaviorKey =
      some (.string s.policy.name) := by
    simp [strings, frontPairs]
  have hregistry : (strings s.frontPairs ++ [(handlersKey, group)]).lookup registryKey =
      some (.string s.registry) := by
    have hne : (registryKey == errorBehaviorKey) = false := by decide
    simp [strings, frontPairs, List.lookup_cons, hne]
  have hgroup : (strings s.frontPairs ++ [(handlersKey, group)]).lookup handlersKey =
      some group := by
    have hne : (handlersKey == errorBehaviorKey) = false ∧
        (handlersKey == registryKey) = false := by
      decide
    simp [strings, frontPairs, List.lookup_cons, hne]
  rw [ofValue?, if_pos hreadable, hbehavior, hregistry, hgroup]
  simp only [optional?, policy?_name, string?_valid, hread]
  rfl

/-- The sections of settings are read as the settings. -/
theorem ofText?_writeAll {s : Settings} (hfiles : ∀ p ∈ s.files, p.IsValid) :
    ofText? (Section.writeAll s.sections) = some s := by
  have hkeys : (s.frontPairs.map (·.1)).Nodup := by
    show [errorBehaviorKey, registryKey].Nodup
    decide
  have hgroup : handlersKey ∉ s.frontPairs.map (·.1) := by
    show handlersKey ∉ [errorBehaviorKey, registryKey]
    decide
  have hfront : s.frontPairs ≠ [] := List.cons_ne_nil _ _
  cases hempty : s.handlers.isEmpty with
  | true =>
    have hentries : s.handlers.entries = [] := List.isEmpty_iff.1 hempty
    have hsections : s.sections = [⟨[], s.frontPairs⟩, ⟨[handlersKey], []⟩] := by
      rw [sections, hempty]
      rfl
    rw [ofText?, hsections, Toml.document?_writeAll_empty hfront hkeys hgroup]
    exact s.ofValue?_front (handlers?_of_specs (hentries ▸ rfl))
  | false =>
    have hne : s.handlerPairs ≠ [] := by
      intro h
      rw [handlerPairs, List.map_eq_nil_iff] at h
      rw [TagMap.isEmpty, h] at hempty
      cases hempty
    rw [ofText?, sections_eq s hempty,
      Toml.document?_writeAll hfront hkeys hgroup hne s.distinct_handlerPairs]
    exact s.ofValue?_front (handlers?_tables hfiles)

/-! ## Strings -/

theorem isValid_policyName (p : Policy) : p.name.IsValid := by
  cases p <;> exact Text.isValid_ofString _

theorem isValid_placementName (p : Placement) : p.name.IsValid := by
  cases p <;> exact Text.isValid_ofString _

theorem isValid_specPairs {spec : TemplateSpec} (h : ∀ p ∈ spec.file, p.IsValid) :
    ∀ p ∈ specPairs spec, p.1.IsValid ∧ p.2.IsValid := by
  intro p hp
  simp only [specPairs, List.mem_append, Option.mem_toList, Option.map_eq_some_iff] at hp
  rcases hp with (⟨t, -, rfl⟩ | ⟨t, ht, rfl⟩) | ⟨placement, -, rfl⟩
  · exact ⟨Text.isValid_ofString _, t.2⟩
  · exact ⟨Text.isValid_ofString _, h t ht⟩
  · exact ⟨Text.isValid_ofString _, isValid_placementName placement⟩

theorem isValid_frontPairs (s : Settings) : ∀ p ∈ s.frontPairs, p.1.IsValid ∧ p.2.IsValid := by
  intro p hp
  simp only [frontPairs, List.mem_cons, List.not_mem_nil, or_false] at hp
  rcases hp with rfl | rfl
  · exact ⟨Text.isValid_ofString _, isValid_policyName s.policy⟩
  · exact ⟨Text.isValid_ofString _, s.registry.2⟩

theorem isValid_sections {s : Settings} (hfiles : ∀ p ∈ s.files, p.IsValid) :
    ∀ c ∈ s.sections, c.IsValid := by
  intro c hc
  rw [sections, List.mem_cons] at hc
  rcases hc with rfl | hc
  · exact ⟨nofun, s.isValid_frontPairs⟩
  · split at hc
    · obtain rfl := List.mem_singleton.1 hc
      exact ⟨List.forall_mem_singleton.2 (Text.isValid_ofString _), nofun⟩
    · obtain ⟨e, he, rfl⟩ := List.mem_map.1 hc
      have htag := s.tags_valid e.1 (List.mem_map.2 ⟨e, he, rfl⟩)
      exact ⟨List.forall_mem_cons.2
          ⟨Text.isValid_ofString _, List.forall_mem_singleton.2 htag⟩,
        isValid_specPairs (forall_mem_files.1 hfiles e he)⟩

/-! ## Loading -/

/-- A path that is read is a string. -/
theorem isValid_of_optional {found : Option Value} {file : Option Text}
    (h : optional? path? found = some file) : ∀ p ∈ file, p.IsValid := by
  cases found with
  | none =>
    cases h
    exact nofun
  | some v =>
    obtain ⟨p, hp, rfl⟩ := Option.map_eq_some_iff.1 h
    obtain ⟨t, -, rfl⟩ := Option.map_eq_some_iff.1 hp
    rintro _ ⟨⟩
    exact t.2

theorem isValid_of_spec? {v : Value} {spec : TemplateSpec} (h : spec? v = some spec) :
    ∀ p ∈ spec.file, p.IsValid := by
  cases v with
  | table kind entries =>
    rw [spec?] at h
    split at h
    · obtain ⟨template, -, h⟩ := Option.bind_eq_some_iff.1 h
      obtain ⟨file, hfile, h⟩ := Option.bind_eq_some_iff.1 h
      obtain ⟨placement, -, heq⟩ := Option.bind_eq_some_iff.1 h
      cases heq
      exact isValid_of_optional hfile
    · cases h
  | array ofTables items =>
    rw [spec?] at h
    obtain ⟨template, -, h⟩ := Option.bind_eq_some_iff.1 h
    obtain ⟨file, hfile, h⟩ := Option.bind_eq_some_iff.1 h
    obtain ⟨placement, -, heq⟩ := Option.bind_eq_some_iff.1 h
    cases heq
    exact isValid_of_optional hfile
  | dateTime =>
    cases h
    exact nofun
  | _ => cases h

theorem isValid_of_handlers? {v : Value}
    {handlers : { m : TagMap TemplateSpec // ∀ tag ∈ m.names, tag.IsValid }}
    (h : handlers? v = some handlers) :
    ∀ e ∈ handlers.1.entries, ∀ p ∈ e.2.file, p.IsValid := by
  cases v with
  | table kind entries =>
    obtain ⟨specs, hspecs, h⟩ := Option.bind_eq_some_iff.1 h
    split at h
    · cases h
      intro e he
      obtain ⟨e', -, -, hspec⟩ := exists_of_readSpecs hspecs e (TagMap.mem_ofList he)
      exact isValid_of_spec? hspec
    · cases h
  | _ => cases h

theorem isValid_of_ofValue? {v : Value} {s : Settings} (h : ofValue? v = some s) :
    ∀ p ∈ s.files, p.IsValid := by
  cases v with
  | table kind entries =>
    rw [ofValue?] at h
    split at h
    · obtain ⟨policy, -, h⟩ := Option.bind_eq_some_iff.1 h
      obtain ⟨registry, -, h⟩ := Option.bind_eq_some_iff.1 h
      obtain ⟨handlers, hhandlers, heq⟩ := Option.bind_eq_some_iff.1 h
      cases heq
      refine forall_mem_files.2 ?_
      cases handlers with
      | none => exact List.forall_mem_nil _
      | some found =>
        cases hgroup : entries.lookup handlersKey with
        | none =>
          rw [hgroup] at hhandlers
          cases hhandlers
        | some group =>
          rw [hgroup] at hhandlers
          obtain ⟨found', hfound, heq⟩ := Option.map_eq_some_iff.1 hhandlers
          cases heq
          exact isValid_of_handlers? hfound
    · cases h
  | _ => cases h

theorem isValid_expandPaths (env : Environment) {s : Settings}
    (hfiles : ∀ p ∈ s.files, p.IsValid) : ∀ p ∈ (s.expandPaths env).files, p.IsValid := by
  refine forall_mem_files.2 fun e he p hp => ?_
  obtain ⟨e', he', rfl⟩ := List.mem_map.1 he
  obtain ⟨path, hpath, rfl⟩ := Option.map_eq_some_iff.1 hp
  exact PathExpansion.isValid_expand env (forall_mem_files.1 hfiles e' he' path hpath)

/-- The paths of settings that are loaded are strings. -/
theorem isValid_of_load {read : FileReader} {env : Environment} {path : Text} {c : Settings}
    (h : load read env path = .ok (some c)) : ∀ p ∈ c.files, p.IsValid := by
  rw [load] at h
  split at h
  · split at h <;> cases h
  · rw [ofBytes] at h
    split at h
    · cases h
    · split at h
      · cases h
      · rename_i s hs
        cases h
        obtain ⟨v, -, hsettings⟩ := Option.bind_eq_some_iff.1 hs
        exact isValid_expandPaths env (isValid_of_ofValue? hsettings)

/-! ## Writing -/

theorem write_of_files {s : Settings} (hfiles : ∀ p ∈ s.files, p.IsValid) :
    s.write = .ok (Section.writeAll s.sections) := if_pos hfiles

/-- What settings are saved as is a string, and it is read as the settings. -/
theorem ofText?_of_write {s : Settings} {text : Text} (h : s.write = .ok text) :
    text.IsValid ∧ ofText? text = some s := by
  rw [write] at h
  split at h
  · rename_i hfiles
    cases h
    exact ⟨Section.IsValid.writeAll (isValid_sections hfiles), ofText?_writeAll hfiles⟩
  · cases h

/-- What is loaded from a file that settings were saved to. -/
theorem load_of_write {s : Settings} {text : Text} (h : s.write = .ok text) {read : FileReader}
    {path : Text} (hread : read path = .ok text) (env : Environment) :
    load read env path = .ok (some (s.expandPaths env)) := by
  obtain ⟨hvalid, hsettings⟩ := ofText?_of_write h
  rw [load, hread]
  simp only [ofBytes, checkText_eq_ok_iff.2 hvalid, hsettings]
  rfl

/-- **Settings that are saved are loaded again**, with the path of each template file expanded, or
as it is where the expansion fails.  They are saved if all paths are strings, and not otherwise. -/
theorem load_saved (s : Settings) :
    ((∀ p ∈ s.files, p.IsValid) → ∃ text, s.write = .ok text ∧
      ∀ (read : FileReader) (env : Environment) (path : Text), read path = .ok text →
        ∃ c, load read env path = .ok (some c) ∧ c.policy = s.policy ∧ c.registry = s.registry ∧
          c.handlers = s.handlers.mapValues fun _ spec => { spec with
            file := spec.file.map fun p => (PathExpansion.expand? env p).getD p }) ∧
    ((∃ p ∈ s.files, ¬ p.IsValid) → s.write = .error .pathNotText) := by
  constructor
  · intro hfiles
    have hwrite := write_of_files hfiles
    exact ⟨_, hwrite, fun read env path hread =>
      ⟨s.expandPaths env, load_of_write hwrite hread env, rfl, rfl, rfl⟩⟩
  · rintro ⟨p, hp, hinvalid⟩
    exact if_neg fun hfiles => hinvalid (hfiles p hp)

/-- Settings with quotes of both kinds, line ends and control characters, and a tag without a
name. -/
def awkward : Settings where
  policy := .warn
  registry := .ofString "it's\n\"quoted\""
  handlers := ⟨[
    (Text.ofString "", ⟨some (.ofString "''' \r\n\"\"\"\\"), none, none⟩),
    (Text.ofString "a.b", ⟨none, some (Text.ofString "~/$who\x01"), some .after⟩),
    (Text.ofString "größe", ⟨some (.ofString ""), some (Text.ofString "~/$none"), some .split⟩)],
    by decide +kernel⟩
  tags_valid := by decide +kernel

theorem load_saved_awkward :
    (∀ p ∈ awkward.files, p.IsValid) ∧ ∃ text, awkward.write = .ok text ∧
      ∃ c, load (fun _ => .ok text)
          ⟨[(Text.ofString "HOME", Text.ofString "/home/me"),
            (Text.ofString "who", Text.ofString "'\\'$")]⟩ [] = .ok (some c) ∧
        c.policy = .warn ∧ c.registry = .ofString "it's\n\"quoted\"" ∧ c.handlers.entries = [
          (Text.ofString "", ⟨some (.ofString "''' \r\n\"\"\"\\"), none, none⟩),
          (Text.ofString "a.b", ⟨none, some (Text.ofString "/home/me/'\\'$\x01"), some .after⟩),
          (Text.ofString "größe",
            ⟨some (.ofString ""), some (Text.ofString "~/$none"), some .split⟩)] := by
  have hfiles : ∀ p ∈ awkward.files, p.IsValid := by decide +kernel
  obtain ⟨text, hwrite, hload⟩ := (load_saved awkward).1 hfiles
  obtain ⟨c, hc, hpolicy, hregistry, hhandlers⟩ := hload (fun _ => .ok text)
    ⟨[(Text.ofString "HOME", Text.ofString "/home/me"),
      (Text.ofString "who", Text.ofString "'\\'$")]⟩ [] rfl
  refine ⟨hfiles, text, hwrite, c, hc, hpolicy, hregistry, ?_⟩
  rw [hhandlers]
  decide +kernel

/-- Settings with a path that is no string. -/
def rawPath : Settings where
  policy := .leave
  registry := .ofString "default"
  handlers := ⟨[(Text.ofString "a", ⟨none, some [0xFF], none⟩)], List.pairwise_singleton _ _⟩
  tags_valid := by decide +kernel

/-- These settings are not saved.  No file is loaded as settings with that path, and one that holds
the path is not read. -/
theorem not_load_saved_rawPath :
    rawPath.write = .error .pathNotText ∧
      (∀ (read : FileReader) (env : Environment) (path : Text) (c : Settings),
        load read env path = .ok (some c) → c.files ≠ rawPath.files) ∧
      ∀ (env : Environment) (path : Text),
        load (fun _ => .ok (Text.ofString "[handlers.a]\nfile = \"" ++ [0xFF] ++
          Text.ofString "\"\n")) env path = .error (.unreadable path .notText) := by
  refine ⟨by decide +kernel, fun read env path c hload hfiles => ?_, fun env path => ?_⟩
  · have hmem : ([0xFF] : Text) ∈ c.files := hfiles ▸ List.mem_singleton_self _
    exact absurd (isValid_of_load hload [0xFF] hmem) (by decide +kernel)
  · have hcheck : checkText (Text.ofString "[handlers.a]\nfile = \"" ++ [0xFF] ++
        Text.ofString "\"\n") = .error .notText := by
      decide +kernel
    rw [load]
    simp only [ofBytes, hcheck]
    rfl

end Settings

end Shortcode
