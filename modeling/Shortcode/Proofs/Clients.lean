import Shortcode.Proofs.PolicyScope
import Shortcode.Proofs.Tracing

/-!
# Handles on registries

A client gets handles on registries, clones them, registers and unregisters tags through them, looks
handlers up and renders texts, in any order; the handlers that run meanwhile register and
unregister tags, too.  `origins` says of each handle where it comes from, and `history` lists the
steps that were made on any tag, by the client and by handlers at any depth.

Handles share their handlers iff they have one origin, and the handlers of each registry are what
the history says.

    runAll? ops (start state) = some c → c.Isolated ops state                            (isolated)
-/

namespace Shortcode

open Result (Alike)

variable {σ : Type}

/-! ## Clients -/

/-- Whoever holds handles. -/
structure Client (σ : Type) where
  world : World σ
  /-- In the order in which they were got. -/
  handles : List Registry
  /-- What was found each time that a handler was looked up. -/
  handlers : List (Option (Handler σ))

namespace Client

/-- A client before it does anything. -/
def start (state : σ) : Client σ := ⟨.initial state, [], []⟩

/-- Keeps one more handle. -/
def hold (c : Client σ) (got : Registry × World σ) : Client σ :=
  { c with world := got.2, handles := c.handles ++ [got.1] }

/-- What a client does; `i` is the number of a handle and `k` that of a handler looked up. -/
inductive Operation (σ : Type) where
  | new (name : Text)
  | get (name : Text)
  | clone (i : Nat)
  /-- The handler may use the handles that are held when it is registered. -/
  | register (i : Nat) (tag : Text) (handler : List Registry → Handler σ)
  | unregister (i : Nat) (tag : Text)
  | lookUp (i : Nat) (tag : Text)
  /-- Calls a handler that was looked up. -/
  | call (k : Nat) (invocation : Invocation) (depth : Nat)
  | parse (i : Nat) (analyzer : Analyzer σ) (policy : Option Policy) (text : Text) (depth : Nat)

/-- How texts are rendered that handlers ask for. -/
def rendering (depth : Nat) : Rendering σ := fun r => Renderer.renderWithin depth (.standard r)

namespace Operation

/-- The client after an operation, unless it names a handle or a handler that is not there or a
rendering goes too deep. -/
def run? : Operation σ → Client σ → Option (Client σ)
  | .new name, c => some (c.hold (c.world.newRegistry name))
  | .get name, c => some (c.hold (c.world.sharedRegistry name))
  | .clone i, c => (c.handles[i]?).map fun r => c.hold (r, c.world)
  | .register i tag handler, c => (c.handles[i]?).map fun r =>
    { c with world := c.world.register r tag (handler c.handles) }
  | .unregister i tag, c => (c.handles[i]?).map fun r =>
    { c with world := (c.world.unregister r tag).2 }
  | .lookUp i tag, c => (c.handles[i]?).map fun r =>
    { c with handlers := c.handlers ++ [c.world.handler? r tag] }
  | .call k invocation depth, c => (c.handlers[k]?).join.bind fun handler =>
    ((handler invocation).run (rendering depth) c.world).world?.map fun w => { c with world := w }
  | .parse i analyzer policy text depth, c => (c.handles[i]?).bind fun r =>
    ((Renderer.mk r analyzer policy).renderWithin depth text c.world).world?.map fun w =>
      { c with world := w }

/-- The client after some operations. -/
def runAll? : List (Operation σ) → Client σ → Option (Client σ)
  | [], c => some c
  | op :: rest, c => (op.run? c).bind (runAll? rest)

end Operation

/-! ### Origins -/

/-- Where a handle comes from. -/
inductive Origin where
  /-- From the call of `new` that gave handle `i`. -/
  | made (i : Nat)
  /-- From the table of shared registries, by name. -/
  | shared (name : Text)
  deriving DecidableEq

namespace Operation

/-- The origins of the handles after an operation. -/
def originsAfter (origins : List Origin) : Operation σ → List Origin
  | .new _ => origins ++ [.made origins.length]
  | .get name => origins ++ [.shared name]
  | .clone i => origins ++ (origins[i]?).toList
  | _ => origins

/-- The origins of the handles that some operations give. -/
def origins (ops : List (Operation σ)) : List Origin := ops.foldl originsAfter []

/-! ### Histories -/

/-- What is noted in a traced computation about the registries that there are. -/
def noted {ε α : Type} (n : Nat) (ending : Result (Traced σ) ε α) : List (Event σ) :=
  Event.within n ((ending.world?.map fun v => v.state.events).getD [])

/-- The steps that an operation makes. -/
def events : Operation σ → Client σ → List (Event σ)
  | .register i tag handler, c => (c.handles[i]?).toList.map fun r =>
    .register r tag (handler c.handles)
  | .unregister i tag, c => (c.handles[i]?).toList.map fun r =>
    .unregister r tag (c.world.unregister r tag).1
  | .call k invocation depth, c => (c.handlers[k]?).join.toList.flatMap fun handler =>
    noted c.world.tables.length
      ((handler invocation).traced.run (rendering depth) (c.world.traced []))
  | .parse i analyzer policy text depth, c => (c.handles[i]?).toList.flatMap fun r =>
    noted c.world.tables.length
      ((Renderer.mk r analyzer policy).traced.renderWithin depth text (c.world.traced []))
  | _, _ => []

/-- The steps that some operations make. -/
def history : List (Operation σ) → Client σ → List (Event σ)
  | [], _ => []
  | op :: rest, c => op.events c ++ ((op.run? c).map (history rest)).getD []

end Operation

/-! ## What operations keep -/

/-- Each registry belongs to one origin: `owners` lists the origins in the order in which the
registries were made. -/
structure Owns (owners origins : List Origin) (c : Client σ) : Prop where
  size : owners.length = c.world.tables.length
  distinct : owners.Nodup
  handles : List.Forall₂ (fun r o => owners[r.id]? = some o) c.handles origins
  shared : ∀ name r, c.world.shared.get? name = some r → owners[r.id]? = some (.shared name)
  found : ∀ name, .shared name ∈ owners → (c.world.shared.get? name).isSome = true
  made : ∀ i, .made i ∈ owners → i < origins.length

/-- The owners of the registries are known, and the history says who handles which tag. -/
structure Sound (origins : List Origin) (history : List (Event σ)) (c : Client σ) : Prop where
  owned : ∃ owners, Owns owners origins c
  handler?_eq : ∀ r tag, c.world.handler? r tag = Event.handlerAfter r tag history
  allTrue : Event.AllTrue [] history

section

variable {owners origins : List Origin} {history : List (Event σ)} {c d : Client σ}
  {op : Operation σ} {w : World σ} {name : Text}

/-! ### Owners -/

theorem Owns.of_eq (h : c.Owns owners origins)
    (hsize : d.world.tables.length = c.world.tables.length)
    (hshared : d.world.shared = c.world.shared) (hhandles : d.handles = c.handles) :
    d.Owns owners origins where
  size := h.size.trans hsize.symm
  distinct := h.distinct
  handles := hhandles ▸ h.handles
  shared := hshared ▸ h.shared
  found := hshared ▸ h.found
  made := h.made

theorem Owns.exists_owner (h : c.Owns owners origins) {i : Nat} {a : Registry}
    (ha : c.handles[i]? = some a) : ∃ o, origins[i]? = some o ∧ owners[a.id]? = some o := by
  obtain ⟨hi, rfl⟩ := List.getElem?_eq_some_iff.1 ha
  have hi' : i < origins.length := h.handles.length_eq ▸ hi
  exact ⟨origins[i], List.getElem?_eq_getElem hi', h.handles.get hi hi'⟩

/-- The registry of a handle belongs to where the handle comes from. -/
theorem Owns.owner (h : c.Owns owners origins) {i : Nat} {a : Registry} {o : Origin}
    (ha : c.handles[i]? = some a) (ho : origins[i]? = some o) : owners[a.id]? = some o := by
  obtain ⟨o', ho', howner⟩ := h.exists_owner ha
  rwa [ho'.symm.trans ho] at howner

theorem Owns.id_lt (h : c.Owns owners origins) {i : Nat} {a : Registry}
    (ha : c.handles[i]? = some a) : a.id < c.world.tables.length := by
  obtain ⟨o, -, ho⟩ := h.exists_owner ha
  rw [← h.size]
  exact (List.getElem?_eq_some_iff.1 ho).1

theorem Owns.sameAs_iff (h : c.Owns owners origins) {i j : Nat} {a b : Registry} {o p : Origin}
    (ha : c.handles[i]? = some a) (hb : c.handles[j]? = some b) (ho : origins[i]? = some o)
    (hp : origins[j]? = some p) : a.sameAs b = true ↔ o = p := by
  have hao := h.owner ha ho
  have hbp := h.owner hb hp
  constructor
  · intro hsame
    rw [beq_iff_eq.1 hsame] at hao
    exact Option.some.inj (hao.symm.trans hbp)
  · rintro rfl
    obtain ⟨hlt, hget⟩ := List.getElem?_eq_some_iff.1 hao
    obtain ⟨hlt', hget'⟩ := List.getElem?_eq_some_iff.1 hbp
    exact beq_iff_eq.2 ((h.distinct.getElem_inj_iff).1 (hget.trans hget'.symm))

/-- A registry that was made by `new` is not the one of any name. -/
theorem Owns.own (h : c.Owns owners origins) {i k : Nat} {a : Registry}
    (ha : c.handles[i]? = some a) (hk : origins[i]? = some (.made k)) (name : Text) :
    (c.world.sharedRegistry name).1.sameAs a = false := by
  have hmade := h.owner ha hk
  refine beq_eq_false_iff_ne.2 fun hid => ?_
  cases hname : c.world.shared.get? name with
  | none =>
    -- the registry that is made for the name comes after all others
    have hnew : (c.world.sharedRegistry name).1.id = c.world.tables.length := by
      rw [World.sharedRegistry, hname]
      rfl
    have hlt := h.id_lt ha
    rw [← hid, hnew] at hlt
    exact Nat.lt_irrefl _ hlt
  | some r =>
    have hfound : (c.world.sharedRegistry name).1 = r := by
      rw [World.sharedRegistry, hname]
    have hshared := h.shared name r hname
    rw [← hid, hfound, hshared] at hmade
    cases hmade

/-- A registry that is made belongs to its origin. -/
theorem Owns.handles_concat (h : c.Owns owners origins) (o : Origin) (name : Text) :
    List.Forall₂ (fun r o' => (owners ++ [o])[r.id]? = some o')
      (c.handles ++ [⟨c.world.tables.length, name⟩]) (origins ++ [o]) := by
  have hold : List.Forall₂ (fun r o' => (owners ++ [o])[r.id]? = some o') c.handles origins :=
    h.handles.imp fun r o' ho =>
      (List.getElem?_append_left (List.getElem?_eq_some_iff.1 ho).1).trans ho
  refine List.rel_append hold (.cons ?_ .nil)
  show (owners ++ [o])[c.world.tables.length]? = some o
  rw [← h.size, List.getElem?_concat_length]

theorem Owns.size_concat (h : c.Owns owners origins) (o : Origin) :
    (owners ++ [o]).length = (c.world.tables ++ [TagMap.empty]).length := by
  rw [List.length_append, List.length_append, h.size]
  rfl

theorem Owns.distinct_concat (h : c.Owns owners origins) {o : Origin} (ho : o ∉ owners) :
    (owners ++ [o]).Nodup :=
  List.nodup_append'.2 ⟨h.distinct, List.nodup_singleton o, List.disjoint_singleton.2 ho⟩

theorem Owns.shared_append (h : c.Owns owners origins) (more : List Origin) {name : Text}
    {r : Registry} (hr : c.world.shared.get? name = some r) :
    (owners ++ more)[r.id]? = some (.shared name) := by
  have howner := h.shared name r hr
  rw [List.getElem?_append_left (List.getElem?_eq_some_iff.1 howner).1, howner]

theorem Owns.made_append (h : c.Owns owners origins) (more : List Origin) {i : Nat}
    (hi : .made i ∈ owners) : i < (origins ++ more).length := by
  rw [List.length_append]
  exact Nat.lt_add_right _ (h.made i hi)

/-- A call of `new`. -/
theorem Owns.new (h : c.Owns owners origins) (name : Text) :
    (c.hold (c.world.newRegistry name)).Owns (owners ++ [.made origins.length])
      (origins ++ [.made origins.length]) where
  size := h.size_concat _
  distinct := h.distinct_concat fun ho => Nat.lt_irrefl _ (h.made _ ho)
  handles := h.handles_concat _ name
  shared _ _ hr := h.shared_append _ hr
  found name hname := by
    rcases List.mem_append.1 hname with hname | hname
    · exact h.found name hname
    · cases List.mem_singleton.1 hname
  made i hi := by
    rcases List.mem_append.1 hi with hi | hi
    · exact h.made_append _ hi
    · cases List.mem_singleton.1 hi
      rw [List.length_append]
      exact Nat.lt_succ_self _

/-- A call of `get` by a name that was asked for. -/
theorem Owns.get_found (h : c.Owns owners origins) {name : Text} {r : Registry}
    (hr : c.world.shared.get? name = some r) :
    (c.hold (r, c.world)).Owns owners (origins ++ [.shared name]) where
  size := h.size
  distinct := h.distinct
  handles := List.rel_append h.handles (.cons (h.shared name r hr) .nil)
  shared := h.shared
  found := h.found
  made _ hi := h.made_append _ hi

/-- A call of `get` by a name that was not asked for. -/
theorem Owns.get_made (h : c.Owns owners origins) {name : Text}
    (hnone : c.world.shared.get? name = none) :
    (c.hold (c.world.sharedRegistry name)).Owns (owners ++ [.shared name])
      (origins ++ [.shared name]) := by
  have hshared : c.world.sharedRegistry name = ((c.world.newRegistry name).1,
      { (c.world.newRegistry name).2 with
        shared := c.world.shared.insert name (c.world.newRegistry name).1 }) := by
    rw [World.sharedRegistry, hnone]
    rfl
  rw [hshared]
  refine ⟨h.size_concat _, h.distinct_concat fun ho => ?_, h.handles_concat _ name, ?_, ?_, ?_⟩
  · have hfound := h.found name ho
    rw [hnone] at hfound
    cases hfound
  · intro other r hr
    rw [hold, TagMap.get?_insert] at hr
    split at hr
    · rename_i hname
      cases hr
      show (owners ++ [Origin.shared name])[c.world.tables.length]? = _
      rw [← h.size, List.getElem?_concat_length, hname]
    · exact h.shared_append _ hr
  · intro other hother
    rw [hold, TagMap.get?_insert]
    split
    · rfl
    · rename_i hname
      rcases List.mem_append.1 hother with hother | hother
      · exact h.found other hother
      · cases List.mem_singleton.1 hother
        exact absurd rfl hname
  · intro i hi
    rcases List.mem_append.1 hi with hi | hi
    · exact h.made_append _ hi
    · cases List.mem_singleton.1 hi

/-- A clone of a handle. -/
theorem Owns.clone (h : c.Owns owners origins) {i : Nat} {r : Registry}
    (hr : c.handles[i]? = some r) :
    (c.hold (r, c.world)).Owns owners (origins ++ (origins[i]?).toList) := by
  obtain ⟨o, ho, howner⟩ := h.exists_owner hr
  rw [ho, Option.toList_some]
  exact ⟨h.size, h.distinct, List.rel_append h.handles (.cons howner .nil), h.shared, h.found,
    fun _ hi => h.made_append _ hi⟩

/-! ### Steps -/

/-- Before an operation nothing is noted. -/
theorem Sound.tells (h : c.Sound origins history) :
    c.world.Tells history c.world.tables.length c.world.shared [] where
  size := rfl
  shared := rfl
  handler?_eq r tag := by
    rw [Event.within, List.filter_nil, List.append_nil]
    exact h.handler?_eq r tag
  allTrue := .nil

theorem Sound.traces (h : c.Sound origins history) :
    c.world.Traces history c.world.tables.length c.world.shared (c.world.traced []) :=
  ⟨[], rfl, h.tells⟩

/-- What is noted in a world with the same registries tells of it. -/
theorem Sound.of_tells (h : c.Sound origins history) {events : List (Event σ)}
    (hw : w.Tells history c.world.tables.length c.world.shared events) :
    Sound origins (history ++ Event.within c.world.tables.length events) { c with world := w } where
  owned := by
    obtain ⟨owners, howners⟩ := h.owned
    exact ⟨owners, howners.of_eq hw.size hw.shared rfl⟩
  handler?_eq := hw.handler?_eq
  allTrue := h.allTrue.append hw.allTrue

/-- A computation and what is noted when it is traced. -/
theorem Sound.of_alike (h : c.Sound origins history) {ε α : Type} {x : Result σ ε α}
    {y : Result (Traced σ) ε α}
    (hxy : Alike (World.Traces history c.world.tables.length c.world.shared) x y)
    (hw : x.world? = some w) :
    Sound origins (history ++ Operation.noted c.world.tables.length y) { c with world := w } := by
  obtain ⟨v, hv, events, rfl, htells⟩ := hxy.exists_world? hw
  rw [Operation.noted, hv]
  exact h.of_tells htells

theorem Sound.id_lt (h : c.Sound origins history) {i : Nat} {r : Registry}
    (hr : c.handles[i]? = some r) : r.id < c.world.tables.length := by
  obtain ⟨owners, howners⟩ := h.owned
  exact howners.id_lt hr

theorem Sound.isRegistered_eq (h : c.Sound origins history) (r : Registry) (tag : Text) :
    c.world.isRegistered r tag = (Event.handlerAfter r tag history).isSome := by
  rw [← h.handler?_eq]
  rfl

/-- Getting a handle changes no handlers. -/
theorem Sound.hold (h : c.Sound origins history) {got : Registry × World σ} {origins' : List Origin}
    (howned : ∃ owners, (c.hold got).Owns owners origins')
    (hgot : ∀ r tag, got.2.handler? r tag = c.world.handler? r tag) :
    (c.hold got).Sound origins' (history ++ []) where
  owned := howned
  handler?_eq r tag := by
    rw [List.append_nil, ← h.handler?_eq]
    exact hgot r tag
  allTrue := by
    rw [List.append_nil]
    exact h.allTrue

theorem handler?_sharedRegistry (w : World σ) (name : Text) (r : Registry) (tag : Text) :
    (w.sharedRegistry name).2.handler? r tag = w.handler? r tag := by
  rw [World.sharedRegistry]
  split
  · rfl
  · exact w.handler?_newRegistry_eq r name tag

/-- **What one operation keeps.** -/
theorem Sound.run (h : c.Sound origins history) (hop : op.run? c = some d) :
    d.Sound (op.originsAfter origins) (history ++ op.events c) := by
  cases op with
  | new name =>
    cases hop
    obtain ⟨owners, howners⟩ := h.owned
    exact h.hold ⟨_, howners.new name⟩ fun r tag => c.world.handler?_newRegistry_eq r name tag
  | get name =>
    cases hop
    obtain ⟨owners, howners⟩ := h.owned
    refine h.hold ?_ fun r tag => handler?_sharedRegistry c.world name r tag
    cases hname : c.world.shared.get? name with
    | none => exact ⟨_, howners.get_made hname⟩
    | some r =>
      have hfound : c.world.sharedRegistry name = (r, c.world) := by
        rw [World.sharedRegistry, hname]
      rw [hfound]
      exact ⟨_, howners.get_found hname⟩
  | clone i =>
    obtain ⟨r, hr, rfl⟩ := Option.map_eq_some_iff.1 hop
    obtain ⟨owners, howners⟩ := h.owned
    exact h.hold ⟨_, howners.clone hr⟩ fun _ _ => rfl
  | register i tag handler =>
    obtain ⟨r, hr, rfl⟩ := Option.map_eq_some_iff.1 hop
    have hnext := h.of_tells (h.tells.register r tag (handler c.handles))
    rw [Event.within_concat,
      if_pos (show (Event.register r tag _).registry.id < _ from h.id_lt hr)] at hnext
    rw [Operation.events, hr]
    exact hnext
  | unregister i tag =>
    obtain ⟨r, hr, rfl⟩ := Option.map_eq_some_iff.1 hop
    have hnext := h.of_tells (h.tells.unregister r tag)
    rw [Event.within_concat,
      if_pos (show (Event.unregister r tag _).registry.id < _ from h.id_lt hr)] at hnext
    rw [Operation.events, hr]
    exact hnext
  | lookUp i tag =>
    obtain ⟨r, hr, rfl⟩ := Option.map_eq_some_iff.1 hop
    obtain ⟨owners, howners⟩ := h.owned
    have hevents : (Operation.lookUp i tag).events c = [] := rfl
    rw [hevents, List.append_nil]
    exact ⟨⟨owners, howners.of_eq rfl rfl rfl⟩, h.handler?_eq, h.allTrue⟩
  | call k invocation depth =>
    obtain ⟨handler, hhandler, hend⟩ := Option.bind_eq_some_iff.1 hop
    obtain ⟨w, hw, rfl⟩ := Option.map_eq_some_iff.1 hend
    rw [Operation.events, hhandler, Option.toList_some, List.flatMap_singleton]
    exact h.of_alike ((handler invocation).alike_run_traced
      (Renderer.renders_tracing _ _ _ depth) h.traces) hw
  | parse i analyzer policy text depth =>
    obtain ⟨r, hr, hend⟩ := Option.bind_eq_some_iff.1 hop
    obtain ⟨w, hw, rfl⟩ := Option.map_eq_some_iff.1 hend
    rw [Operation.events, hr, Option.toList_some, List.flatMap_singleton]
    exact h.of_alike (Renderer.alike_renderWithin_traced _ _ _ _ depth text h.traces) hw

/-- An operation that changes other registries only leaves a registry as it is. -/
theorem Sound.others (h : c.Sound origins history) (hop : op.run? c = some d) (r : Registry)
    (hothers : ∀ e ∈ op.events c, e.change?.isSome = true → e.registry.sameAs r = false) :
    d.world.handlers r = c.world.handlers r := by
  refine TagMap.eq_of_get? fun tag => ?_
  have hafter := (h.run hop).handler?_eq r tag
  rw [Event.handlerAfter_of_others hothers, ← h.handler?_eq] at hafter
  exact hafter

/-- **What any operations keep.** -/
theorem Sound.runAll {ops : List (Operation σ)} (h : c.Sound origins history)
    (hops : Operation.runAll? ops c = some d) :
    d.Sound (ops.foldl Operation.originsAfter origins) (history ++ Operation.history ops c) := by
  induction ops generalizing origins history c with
  | nil =>
    cases hops
    rw [Operation.history, List.append_nil]
    exact h
  | cons op rest ih =>
    obtain ⟨next, hnext, hrest⟩ := Option.bind_eq_some_iff.1 hops
    rw [Operation.history, hnext, Option.map_some, Option.getD_some, ← List.append_assoc]
    exact ih (h.run hnext) hrest

theorem sound_start (state : σ) : (start state).Sound [] [] where
  owned := ⟨[], rfl, .nil, .nil, nofun, nofun, nofun⟩
  handler?_eq _ _ := rfl
  allTrue := .nil

end

/-! ## Handlers that were looked up -/

section

variable {c d : Client σ} {op : Operation σ} {before after ops : List (Operation σ)}

theorem handlers_grow (h : op.run? c = some d) : c.handlers <+: d.handlers := by
  cases op with
  | new _ | get _ =>
    cases h
    exact List.prefix_rfl
  | lookUp i tag =>
    obtain ⟨r, -, rfl⟩ := Option.map_eq_some_iff.1 h
    exact List.prefix_append ..
  | clone _ | register _ _ _ | unregister _ _ =>
    obtain ⟨r, -, rfl⟩ := Option.map_eq_some_iff.1 h
    exact List.prefix_rfl
  | call _ _ _ | parse _ _ _ _ _ =>
    obtain ⟨_, -, hend⟩ := Option.bind_eq_some_iff.1 h
    obtain ⟨w, -, rfl⟩ := Option.map_eq_some_iff.1 hend
    exact List.prefix_rfl

theorem handlers_grow_runAll (h : Operation.runAll? ops c = some d) :
    c.handlers <+: d.handlers := by
  induction ops generalizing c with
  | nil =>
    cases h
    exact List.prefix_rfl
  | cons op rest ih =>
    obtain ⟨next, hnext, hrest⟩ := Option.bind_eq_some_iff.1 h
    exact (handlers_grow hnext).trans (ih hrest)

theorem runAll?_append (c : Client σ) : Operation.runAll? (before ++ after) c =
    (Operation.runAll? before c).bind (Operation.runAll? after) := by
  induction before generalizing c with
  | nil => rfl
  | cons op rest ih =>
    rw [List.cons_append, Operation.runAll?, Operation.runAll?, Option.bind_assoc]
    exact congrArg _ (funext fun next => ih next)

/-- What was found when a handler was looked up stays what was found. -/
theorem exists_lookedUp {i : Nat} {tag : Text}
    (h : Operation.runAll? (before ++ .lookUp i tag :: after) c = some d) :
    ∃ e r, Operation.runAll? before c = some e ∧ e.handles[i]? = some r ∧
      d.handlers[e.handlers.length]? = some (e.world.handler? r tag) := by
  rw [runAll?_append] at h
  obtain ⟨e, he, h⟩ := Option.bind_eq_some_iff.1 h
  obtain ⟨next, hnext, hrest⟩ := Option.bind_eq_some_iff.1 h
  obtain ⟨r, hr, rfl⟩ := Option.map_eq_some_iff.1 hnext
  obtain ⟨more, hmore⟩ := handlers_grow_runAll hrest
  refine ⟨e, r, he, hr, ?_⟩
  rw [← hmore, List.append_assoc, List.getElem?_append_right (Nat.le_refl _), Nat.sub_self]
  rfl

end

/-! ## Main statement -/

/-- What holds of a client after some operations. -/
structure Isolated (ops : List (Operation σ)) (state : σ) (c : Client σ) : Prop where
  length_origins : (Operation.origins ops).length = c.handles.length
  /-- Handles share their handlers iff they go back to one call of `new` or were got by one name. -/
  sameAs_iff : ∀ {i j : Nat} {a b : Registry} {o p : Origin}, c.handles[i]? = some a →
    c.handles[j]? = some b → (Operation.origins ops)[i]? = some o →
    (Operation.origins ops)[j]? = some p → (a.sameAs b = true ↔ o = p)
  /-- No name leads to a registry that was made by `new`. -/
  own : ∀ {i k : Nat} {a : Registry}, c.handles[i]? = some a →
    (Operation.origins ops)[i]? = some (.made k) →
    ∀ name, (c.world.sharedRegistry name).1.sameAs a = false
  /-- The handlers are what the last changes through any handle made them. -/
  handler?_eq : ∀ r tag,
    c.world.handler? r tag = Event.handlerAfter r tag (Operation.history ops (start state))
  isRegistered_eq : ∀ r tag, c.world.isRegistered r tag =
    (Event.handlerAfter r tag (Operation.history ops (start state))).isSome
  tags : ∀ r, (c.world.tags r).Pairwise (· < ·) ∧ ∀ tag, tag ∈ c.world.tags r ↔
    (Event.handlerAfter r tag (Operation.history ops (start state))).isSome = true
  /-- Each step was told the truth, also inside handlers: unregistering, whether there was a
  handler. -/
  answers : ∀ {before : List (Event σ)} {e : Event σ} {after : List (Event σ)},
    Operation.history ops (start state) = before ++ e :: after → e.IsTrue before
  /-- Renderings and calls end as they do when the steps of their handlers are noted. -/
  parses : ∀ (renderer : Renderer σ) (text : Text) (depth : Nat),
    Alike (fun w v => ∃ events, v = w.traced events) (renderer.renderWithin depth text c.world)
      (renderer.traced.renderWithin depth text (c.world.traced []))
  calls : ∀ (handler : Handler σ) (invocation : Invocation) (depth : Nat),
    Alike (fun w v => ∃ events, v = w.traced events)
      ((handler invocation).run (rendering depth) c.world)
      ((handler invocation).traced.run (rendering depth) (c.world.traced []))
  /-- An operation leaves a registry as it is if all its changes are made through others. -/
  others : ∀ {op : Operation σ} {d : Client σ}, op.run? c = some d → ∀ r,
    (∀ e ∈ op.events c, e.change?.isSome = true → e.registry.sameAs r = false) →
      d.world.handlers r = c.world.handlers r
  /-- A handler that was looked up is kept as it was then. -/
  lookedUp : ∀ {before after : List (Operation σ)} {i : Nat} {tag : Text},
    ops = before ++ .lookUp i tag :: after →
      ∃ e r, Operation.runAll? before (start state) = some e ∧ e.handles[i]? = some r ∧
        c.handlers[e.handlers.length]? = some (e.world.handler? r tag)

/-- **Registries have an identity and are isolated.**  Handles on one registry are told by where
they come from, all of them see the last change that was made through any of them, and no other
registry does. -/
theorem isolated (ops : List (Operation σ)) (state : σ) {c : Client σ}
    (h : Operation.runAll? ops (start state) = some c) : c.Isolated ops state := by
  have hsound : c.Sound (Operation.origins ops) (Operation.history ops (start state)) :=
    (sound_start state).runAll h
  obtain ⟨owners, howners⟩ := hsound.owned
  constructor
  case length_origins => exact howners.handles.length_eq.symm
  case sameAs_iff => exact howners.sameAs_iff
  case own => exact howners.own
  case handler?_eq => exact hsound.handler?_eq
  case isRegistered_eq => exact hsound.isRegistered_eq
  case tags =>
    intro r
    refine ⟨List.pairwise_map.2 (c.world.handlers r).sorted, fun tag => ?_⟩
    rw [← hsound.isRegistered_eq]
    exact (c.world.handlers r).mem_names_iff tag
  case answers => exact fun hevents => hsound.allTrue.isTrue hevents
  case parses =>
    intro renderer text depth
    exact (renderer.alike_renderWithin_traced _ _ _ depth text hsound.traces).mono
      fun w v ⟨events, hv, _⟩ => ⟨events, hv⟩
  case calls =>
    intro handler invocation depth
    exact ((handler invocation).alike_run_traced (Renderer.renders_tracing _ _ _ depth)
      hsound.traces).mono fun w v ⟨events, hv, _⟩ => ⟨events, hv⟩
  case others => exact hsound.others
  case lookedUp =>
    rintro before after i tag rfl
    exact exists_lookedUp h

/-- The handler of `[boot]` takes the handler of `[t]` away from its own registry and gives one for
`[late]` to the shared registry of the same name. -/
def boot (held : List Registry) : Handler Unit := fun _ =>
  match held with
  | own :: shared :: _ =>
    .unregister own (Text.ofString "t") fun found =>
      .register shared (Text.ofString "late") (fun _ => .give [] none)
        (.give (Text.ofString (if found then "gone" else "kept")) none)
  | _ => .give [] none

/-- A registry of its own and the shared one of the same name, with a clone of either. -/
def siblings : List (Operation Unit) :=
  [.new (Text.ofString "site"), .get (Text.ofString "site"), .clone 0, .clone 1,
    .register 0 (Text.ofString "t") (fun _ _ => .give (Text.ofString "old") none),
    .register 2 (Text.ofString "boot") boot, .lookUp 2 (Text.ofString "t"),
    .parse 0 .standard none (Text.ofString "[t][boot][t]") 1, .unregister 2 (Text.ofString "t"),
    .call 0 ⟨[], .empty, none, ⟨0, []⟩, .none⟩ 0]

theorem isolated_siblings : ∃ c, Operation.runAll? siblings (start ()) = some c ∧
    c.Isolated siblings () ∧
    c.handles.map c.world.tags = [[Text.ofString "boot"], [Text.ofString "late"],
      [Text.ofString "boot"], [Text.ofString "late"]] := by
  have hrun : (Operation.runAll? siblings (start ())).map (fun c => c.handles.map c.world.tags) =
      some [[Text.ofString "boot"], [Text.ofString "late"], [Text.ofString "boot"],
        [Text.ofString "late"]] := by
    decide +kernel
  obtain ⟨c, hc, htags⟩ := Option.map_eq_some_iff.1 hrun
  exact ⟨c, hc, isolated siblings () hc, htags⟩

end Client

end Shortcode
