import Codename.Session.Basic

/-!
# Calls in a world

What the source and the selection store of a service act on may be taken as a value, the world. A
call then takes a situation, which is a state of the session and a world, to an answer and another
situation, and each call is determined by what the source and the store do in the worlds on the way.

## Main definitions

* `Situation` — a session and the world around it.
* `Call.on` — the answer of a call and the situation that it leaves.
* `Situation.selecting`, `Situation.opening`, `Situation.keeping` — what is left when a schema was
  selected, a catalog was loaded or a mapping was loaded.

## Main statements

* `Call.on_bind` — one call after another.
* `Service.catalog_on_of_ok`, `Service.load_on_of_ok` — the first load of a catalog or a mapping.
* `Service.select_on`, `Service.mapping_on` — the calls that end with a mapping.
-/

namespace Codename.Session

variable {σ α β : Type}

/-- A session and the world that its source and its selection store act on. -/
structure Situation (σ : Type) where
  state : State
  world : σ

/-- The answer of a call and the situation that it leaves. -/
def Call.on (call : Call (StateM σ) α) (s : Situation σ) : Except Problem α × Situation σ :=
  let result := (call.run.run s.state).run s.world
  (result.1.1, ⟨result.1.2, result.2⟩)

/-- The name of the schema that a store gives when it is asked for its entry. -/
def rememberedName : Except String (Option Catalog.Entry) → Option String
  | .ok (some entry) => some entry.name
  | _ => none

namespace Situation

/-- A schema was selected, and the store asked to save it. -/
def selecting (s : Situation σ) (service : Service (StateM σ)) (entry : Catalog.Entry) :
    Situation σ :=
  ⟨{ s.state with selected? := some entry }, (service.selections.save entry s.world).2⟩

/-- A catalog was loaded, and the schema selected that a session starts with. -/
def opening (s : Situation σ) (service : Service (StateM σ)) (catalog : Catalog) : Situation σ :=
  let remembered := service.selections.load s.world
  let chosen : Situation σ :=
    match catalog.initial? (rememberedName remembered.1) with
    | some entry => selecting ⟨s.state, remembered.2⟩ service entry
    | none => ⟨s.state, remembered.2⟩
  ⟨{ chosen.state with catalog? := some catalog }, chosen.world⟩

/-- A mapping was loaded. -/
def keeping (s : Situation σ) (name : String) (mapping : Mapping) : Situation σ :=
  ⟨{ s.state with mappings := s.state.mappings.insert name mapping }, s.world⟩

variable {s : Situation σ} {service : Service (StateM σ)} {entry : Catalog.Entry}
  {catalog : Catalog}

@[simp] theorem opening_catalog? : (s.opening service catalog).state.catalog? = some catalog :=
  rfl

@[simp] theorem opening_mappings :
    (s.opening service catalog).state.mappings = s.state.mappings := by
  rw [opening]
  cases catalog.initial? (rememberedName (service.selections.load s.world).1) with
  | none => rfl
  | some entry => rfl

end Situation

namespace Call

variable {s : Situation σ}

@[simp] theorem on_pure (a : α) : Call.on (pure a : Call (StateM σ) α) s = (.ok a, s) := rfl

@[simp] theorem on_throw (problem : Problem) :
    Call.on (throw problem : Call (StateM σ) α) s = (.error problem, s) := rfl

@[simp] theorem on_get : Call.on (get : Call (StateM σ) State) s = (.ok s.state, s) := rfl

@[simp] theorem on_modify (f : State → State) :
    Call.on (modify f : Call (StateM σ) PUnit) s = (.ok ⟨⟩, ⟨f s.state, s.world⟩) := rfl

@[simp] theorem on_lift (action : StateM σ α) :
    Call.on (liftM action : Call (StateM σ) α) s =
      (.ok (action s.world).1, ⟨s.state, (action s.world).2⟩) := rfl

/-- One call after another: the first problem ends it. -/
theorem on_bind (call : Call (StateM σ) α) (next : α → Call (StateM σ) β) :
    Call.on (call >>= next) s =
      match call.on s with
      | (.ok a, s') => (next a).on s'
      | (.error problem, s') => (.error problem, s') := by
  rcases hrun : (call.run.run s.state).run s.world with ⟨⟨answer, state⟩, world⟩
  simp only [Call.on, ExceptT.run_bind, StateT.run_bind, hrun]
  cases answer with
  | ok a => rfl
  | error problem => rfl

theorem on_map (f : α → β) (call : Call (StateM σ) α) :
    Call.on (f <$> call) s = ((call.on s).1.map f, (call.on s).2) := by
  rw [map_eq_pure_bind, on_bind]
  rcases call.on s with ⟨answer, s'⟩
  cases answer with
  | ok a => rfl
  | error problem => rfl

end Call

namespace Service

variable {service : Service (StateM σ)} {s : Situation σ} {catalog : Catalog}
  {entry : Catalog.Entry} {reason : String} {document : Mapping.Document} {mapping : Mapping}
  {world : σ}

@[simp] theorem setSelected_on :
    (service.setSelected entry).on s = (.ok (), s.selecting service entry) :=
  rfl

@[simp] theorem remembered_on :
    service.remembered.on s =
      (.ok (rememberedName (service.selections.load s.world).1),
        ⟨s.state, (service.selections.load s.world).2⟩) := by
  rw [remembered, Call.on_bind, Call.on_lift]
  rcases (service.selections.load s.world).1 with reason | _ | entry
  · rfl
  · rfl
  · rfl

/-! ### The catalog -/

theorem catalog_on_of_some (h : s.state.catalog? = some catalog) :
    service.catalog.on s = (.ok catalog, s) := by
  rw [Service.catalog, Call.on_bind, Call.on_get]
  simp [h]

theorem catalog_on_of_error (h : s.state.catalog? = none)
    (hload : service.source.loadCatalog s.world = (.error reason, world)) :
    service.catalog.on s = (.error (.catalogUnavailable reason), ⟨s.state, world⟩) := by
  rw [Service.catalog, Call.on_bind, Call.on_get]
  simp [h, Call.on_bind, hload]

theorem catalog_on_of_ok (h : s.state.catalog? = none)
    (hload : service.source.loadCatalog s.world = (.ok catalog, world)) :
    service.catalog.on s = (.ok catalog, Situation.opening ⟨s.state, world⟩ service catalog) := by
  rw [Service.catalog, Call.on_bind, Call.on_get]
  simp only [h, Call.on_bind, Call.on_lift, hload, remembered_on, Situation.opening]
  cases catalog.initial? (rememberedName (service.selections.load world).1) with
  | none => rfl
  | some entry => rfl

/-- A call that needs the catalog has it or fails with it. -/
theorem catalog_on_cases (service : Service (StateM σ)) (s : Situation σ) :
    (∃ catalog ready, service.catalog.on s = (.ok catalog, ready) ∧
        ready.state.catalog? = some catalog) ∨
      ∃ problem ready, service.catalog.on s = (.error problem, ready) ∧
        ready.state.catalog? = none := by
  cases hcatalog : s.state.catalog? with
  | some catalog => exact .inl ⟨catalog, s, catalog_on_of_some hcatalog, hcatalog⟩
  | none =>
    rcases hload : service.source.loadCatalog s.world with ⟨reason | catalog, world⟩
    · exact .inr ⟨_, _, catalog_on_of_error hcatalog hload, hcatalog⟩
    · exact .inl ⟨_, _, catalog_on_of_ok hcatalog hload, Situation.opening_catalog?⟩

/-! ### The mapping of a schema -/

theorem load_on_of_some (h : s.state.mappings.get? entry.name = some mapping) :
    (service.load entry).on s = (.ok mapping, s) := by
  rw [load, Call.on_bind, Call.on_get]
  simp [h]

theorem load_on_of_error (h : s.state.mappings.get? entry.name = none)
    (hload : service.source.loadDocument entry s.world = (.error reason, world)) :
    (service.load entry).on s =
      (.error (.mappingUnavailable entry.name reason), ⟨s.state, world⟩) := by
  rw [load, Call.on_bind, Call.on_get]
  simp [h, Call.on_bind, hload]

theorem load_on_of_invalid {use : Mapping.NameUse}
    (h : s.state.mappings.get? entry.name = none)
    (hload : service.source.loadDocument entry s.world = (.ok document, world))
    (hinvalid : Mapping.ofDocument document = .error use) :
    (service.load entry).on s = (.error (.invalidMapping use), ⟨s.state, world⟩) := by
  rw [load, Call.on_bind, Call.on_get]
  simp [h, Call.on_bind, hload, hinvalid]

theorem load_on_of_ok (h : s.state.mappings.get? entry.name = none)
    (hload : service.source.loadDocument entry s.world = (.ok document, world))
    (hvalid : Mapping.ofDocument document = .ok mapping) :
    (service.load entry).on s =
      (.ok mapping, Situation.keeping ⟨s.state, world⟩ entry.name mapping) := by
  rw [load, Call.on_bind, Call.on_get]
  simp [h, Call.on_bind, Call.on_map, Except.map, hload, hvalid, Situation.keeping]

/-! ### Calls that end with a mapping -/

theorem find_on (catalog : Catalog) (name : String) (s : Situation σ) :
    (find catalog name : Call (StateM σ) Catalog.Entry).on s =
      (match catalog.find? name with
        | some entry => .ok entry
        | none => .error (.unknownSchema name), s) := by
  rw [find]
  cases catalog.find? name with
  | some entry => rfl
  | none => rfl

theorem schemaName_on (schema : Option String) (s : Situation σ) :
    (schemaName schema : Call (StateM σ) String).on s =
      (match schema.or (s.state.selected?.map (·.name)) with
        | some name => .ok name
        | none => .error .nothingSelected, s) := by
  cases schema with
  | some name => rfl
  | none =>
    rw [schemaName, Call.on_bind, Call.on_get]
    cases hselected : s.state.selected? with
    | some entry => simp [hselected]
    | none => simp [hselected]

/-- Selecting a schema: it is selected before its mapping is loaded. -/
theorem select_on (service : Service (StateM σ)) (name : String) (s : Situation σ) :
    (service.select name).on s =
      match service.catalog.on s with
      | (.error problem, ready) => (.error problem, ready)
      | (.ok catalog, ready) =>
        match catalog.find? name with
        | none => (.error (.unknownSchema name), ready)
        | some entry => (service.load entry).on (ready.selecting service entry) := by
  rw [select, Call.on_bind]
  rcases service.catalog.on s with ⟨problem | catalog, ready⟩
  · rfl
  · simp only [Call.on_bind, find_on]
    cases catalog.find? name with
    | none => rfl
    | some entry => simp

/-- Asking for a mapping: its schema is selected once it is loaded. -/
theorem mapping_on (service : Service (StateM σ)) (schema : Option String) (s : Situation σ) :
    (service.mapping schema).on s =
      match service.catalog.on s with
      | (.error problem, ready) => (.error problem, ready)
      | (.ok catalog, ready) =>
        match schema.or (ready.state.selected?.map (·.name)) with
        | none => (.error .nothingSelected, ready)
        | some name =>
          match catalog.find? name with
          | none => (.error (.unknownSchema name), ready)
          | some entry =>
            match (service.load entry).on ready with
            | (.error problem, s') => (.error problem, s')
            | (.ok mapping, s') => (.ok mapping, s'.selecting service entry) := by
  rw [Service.mapping, Call.on_bind]
  rcases service.catalog.on s with ⟨problem | catalog, ready⟩
  · rfl
  · simp only [Call.on_bind, schemaName_on]
    cases schema.or (ready.state.selected?.map (·.name)) with
    | none => rfl
    | some name =>
      simp only [find_on]
      cases catalog.find? name with
      | none => rfl
      | some entry =>
        simp only [setSelected_on, Call.on_pure]
        rcases (service.load entry).on ready with ⟨problem | mapping, s'⟩
        · rfl
        · rfl

end Service

end Codename.Session
