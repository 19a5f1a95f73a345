import Codename.Proofs.Session.Call

/-!
# Requests to a session

All calls of a session are requests: for the catalog, for a schema to be selected, or for some task
that is done with a mapping. While a session answers one request after another, the world may change
in any way.

## Main definitions

* `Request`, `Response`, `Service.answer` — what a session can be asked for, and its answer.
* `Request.schema?` — the schema that a request is about.
* `Step`, `Service.run` — requests and changes of the world, one after another.

## Main statements

* `Service.answer_on` — the catalog, then the schema, then its mapping.
-/

namespace Codename.Session

variable {σ : Type}

/-- What can be done with a mapping. -/
inductive Task where
  | mapping
  | encrypt (text : String)
  | annotate (text : String)
  | check (options : Check.Options) (text : String)

/-- What a session can be asked for. A task can leave the schema open, and then the selected one is
meant. -/
inductive Request where
  | catalog
  | select (name : String)
  | use (schema : Option String) (task : Task)

/-- What a session answers. -/
inductive Response where
  | catalog (catalog : Catalog)
  | mapping (mapping : Mapping)
  | text (text : String)
  | outcome (outcome : Check.Outcome)

/-- What is answered from a mapping. -/
def Task.response (mapping : Mapping) : Task → Response
  | .mapping => .mapping mapping
  | .encrypt text => .text (mapping.encrypt text)
  | .annotate text => .text (mapping.annotate text)
  | .check options text => .outcome (mapping.check options text)

/-- Whether the task needs no mapping, which only a check of the empty text does not. -/
def Task.isIdle : Task → Bool
  | .check _ text => text.isEmpty
  | _ => false

namespace Request

/-- What is answered from the mapping of the schema that a request is about. -/
def response (mapping : Mapping) : Request → Response
  | .use _ task => task.response mapping
  | _ => .mapping mapping

/-- Whether the request needs nothing to be loaded. -/
def isIdle : Request → Bool
  | .use _ task => task.isIdle
  | _ => false

/-- The name of the schema that a request is about, when the catalog is there. -/
def schemaName? (state : State) : Request → Option String
  | .catalog => none
  | .select name => some name
  | .use schema task => if task.isIdle then none else schema.or (state.selected?.map (·.name))

/-- The schema that a request is about, in a catalog. -/
def find (catalog : Catalog) (state : State) (request : Request) : Except Problem Catalog.Entry :=
  match request.schemaName? state with
  | none => .error .nothingSelected
  | some name =>
    match catalog.find? name with
    | none => .error (.unknownSchema name)
    | some entry => .ok entry

/-- The schema that a request is about, if the catalog is there and lists it. -/
def schema? (request : Request) (state : State) : Option Catalog.Entry :=
  state.catalog?.bind fun catalog => (request.schemaName? state).bind catalog.find?

variable {request : Request} {state : State} {catalog : Catalog} {entry : Catalog.Entry}

theorem schema?_eq_toOption (h : state.catalog? = some catalog) :
    request.schema? state = (request.find catalog state).toOption := by
  rw [schema?, h, Option.bind_some, find]
  cases request.schemaName? state with
  | none => rfl
  | some name =>
    rw [Option.bind_some]
    dsimp only
    cases catalog.find? name with
    | none => rfl
    | some entry => rfl

/-- What it means that a request is about a schema of the catalog. -/
theorem schema?_eq_some (h : request.schema? state = some entry) :
    request.isIdle = false ∧ request.schemaName? state = some entry.name ∧
      ∃ catalog, state.catalog? = some catalog ∧ catalog.find? entry.name = some entry ∧
        request.find catalog state = .ok entry := by
  obtain ⟨catalog, hcatalog, h⟩ := Option.bind_eq_some_iff.1 h
  obtain ⟨name, hname, hentry⟩ := Option.bind_eq_some_iff.1 h
  obtain ⟨-, rfl⟩ := Catalog.mem_of_find? hentry
  refine ⟨?_, hname, catalog, hcatalog, hentry, by simp [find, hname, hentry]⟩
  cases request with
  | catalog => cases hname
  | select name => rfl
  | use schema task =>
    rw [isIdle, ← Bool.not_eq_true]
    intro hidle
    rw [schemaName?, if_pos hidle] at hname
    cases hname

theorem schema?_catalog (state : State) : Request.catalog.schema? state = none := by
  rw [schema?]
  cases state.catalog? with
  | none => rfl
  | some catalog => rfl

end Request

namespace Service

section Answer

variable {m : Type → Type} [Monad m]

/-- Does a task with the mapping of a schema. -/
def perform (service : Service m) (schema : Option String) : Task → Call m Response
  | .mapping => .mapping <$> service.mapping schema
  | .encrypt text => .text <$> service.encrypt schema text
  | .annotate text => .text <$> service.annotate schema text
  | .check options text => .outcome <$> service.check schema options text

/-- Answers a request. -/
def answer (service : Service m) : Request → Call m Response
  | .catalog => .catalog <$> service.catalog
  | .select name => .mapping <$> service.select name
  | .use schema task => service.perform schema task

/-- Has the mapping of the schema that a request is about loaded, and the schema selected: before it
if the request is to select it, and else after it. -/
def obtain (service : Service m) (entry : Catalog.Entry) : Request → Call m Mapping
  | .select _ => do
    service.setSelected entry
    service.load entry
  | _ => do
    let mapping ← service.load entry
    service.setSelected entry
    return mapping

end Answer

end Service

/-- What can happen to a session: a request, or any change of the world. -/
inductive Step (σ : Type) where
  | ask (request : Request)
  | change (change : σ → σ)

/-- A session that has loaded and selected nothing. -/
def Situation.start (world : σ) : Situation σ := ⟨{}, world⟩

namespace Service

/-- The situation after a step. -/
def take (service : Service (StateM σ)) (s : Situation σ) : Step σ → Situation σ
  | .ask request => ((service.answer request).on s).2
  | .change change => ⟨s.state, change s.world⟩

/-- The situation after some steps. -/
def run (service : Service (StateM σ)) (steps : List (Step σ)) (s : Situation σ) : Situation σ :=
  steps.foldl service.take s

variable {service : Service (StateM σ)} {s ready : Situation σ} {schema : Option String}
  {task : Task} {request : Request} {entry : Catalog.Entry} {name : String}

/-! ### Answers -/

/-- An idle request is answered in the same way by every service, and leaves all as it was. -/
theorem answer_on_of_isIdle (h : request.isIdle = true) :
    ∃ response, ∀ {σ : Type} (service : Service (StateM σ)) (s : Situation σ),
      (service.answer request).on s = (.ok response, s) := by
  cases request with
  | catalog => cases h
  | select name => cases h
  | use schema task =>
    cases task with
    | mapping => cases h
    | encrypt text => cases h
    | annotate text => cases h
    | check options text =>
      have htext : text.isEmpty = true := h
      refine ⟨.outcome (if options.listNames then .listed .passed else .flag true), ?_⟩
      intro σ service s
      rw [answer, perform, Call.on_map, Service.check, if_pos htext, Call.on_pure]
      rfl

theorem perform_on (h : task.isIdle = false) :
    (service.perform schema task).on s =
      (((service.mapping schema).on s).1.map task.response,
        ((service.mapping schema).on s).2) := by
  cases task with
  | mapping => rw [perform, Call.on_map]; rfl
  | encrypt text =>
    rw [perform, Call.on_map, Service.encrypt, Call.on_bind]
    rcases (service.mapping schema).on s with ⟨problem | mapping, s'⟩
    · rfl
    · rfl
  | annotate text =>
    rw [perform, Call.on_map, Service.annotate, Call.on_bind]
    rcases (service.mapping schema).on s with ⟨problem | mapping, s'⟩
    · rfl
    · rfl
  | check options text =>
    rw [perform, Call.on_map, Service.check, if_neg (by simpa [Task.isIdle] using h), Call.on_bind]
    rcases (service.mapping schema).on s with ⟨problem | mapping, s'⟩
    · rfl
    · rfl

theorem obtain_on_select :
    (service.obtain entry (.select name)).on ready =
      (service.load entry).on (ready.selecting service entry) := by
  rw [obtain, Call.on_bind, setSelected_on]

theorem obtain_on_use :
    (service.obtain entry (.use schema task)).on ready =
      match (service.load entry).on ready with
      | (.error problem, s') => (.error problem, s')
      | (.ok mapping, s') => (.ok mapping, s'.selecting service entry) := by
  show Call.on (service.load entry >>= fun mapping => service.setSelected entry >>= fun _ =>
    pure mapping) ready = _
  simp only [Call.on_bind, setSelected_on, Call.on_pure]
  rcases (service.load entry).on ready with ⟨problem | mapping, s'⟩
  · rfl
  · rfl

theorem answer_on_catalog :
    (service.answer .catalog).on s =
      ((service.catalog.on s).1.map .catalog, (service.catalog.on s).2) := by
  rw [answer, Call.on_map]

/-- A request that needs a mapping: first the catalog, then the schema, then its mapping. -/
theorem answer_on (hneeds : request ≠ .catalog) (hidle : request.isIdle = false) :
    (service.answer request).on s =
      match service.catalog.on s with
      | (.error problem, ready) => (.error problem, ready)
      | (.ok catalog, ready) =>
        match request.find catalog ready.state with
        | .error problem => (.error problem, ready)
        | .ok entry =>
          (((service.obtain entry request).on ready).1.map request.response,
            ((service.obtain entry request).on ready).2) := by
  cases request with
  | catalog => exact absurd rfl hneeds
  | select name =>
    rw [answer, Call.on_map, select_on]
    rcases service.catalog.on s with ⟨problem | catalog, ready⟩
    · rfl
    · simp only [Request.find, Request.schemaName?]
      cases catalog.find? name with
      | none => rfl
      | some entry => simp only [obtain_on_select]; rfl
  | use schema task =>
    have htask : task.isIdle = false := hidle
    rw [answer, perform_on htask, mapping_on]
    rcases service.catalog.on s with ⟨problem | catalog, ready⟩
    · rfl
    · simp only [Request.find, Request.schemaName?, htask, Bool.false_eq_true, if_false]
      cases schema.or (ready.state.selected?.map (·.name)) with
      | none => rfl
      | some name =>
        dsimp only
        cases catalog.find? name with
        | none => rfl
        | some entry =>
          simp only [obtain_on_use]
          rfl

/-- A request about a schema of the catalog ends with its mapping. -/
theorem answer_on_of_some (h : request.schema? (service.catalog.on s).2.state = some entry) :
    (service.answer request).on s =
      (((service.obtain entry request).on (service.catalog.on s).2).1.map request.response,
        ((service.obtain entry request).on (service.catalog.on s).2).2) := by
  obtain ⟨hidle, -, catalog, hthere, -, hfind⟩ := Request.schema?_eq_some h
  have hneeds : request ≠ .catalog := by
    rintro rfl
    rw [Request.schema?_catalog] at h
    cases h
  rw [answer_on hneeds hidle]
  rcases catalog_on_cases service s with
    ⟨other, ready, hcatalog, hother⟩ | ⟨problem, ready, hcatalog, hmissing⟩
  · rw [hcatalog] at hthere hfind ⊢
    obtain rfl : other = catalog := Option.some.inj (hother.symm.trans hthere)
    dsimp only at hfind ⊢
    rw [hfind]
  · rw [hcatalog, hmissing] at hthere
    cases hthere

/-- A request that needs a mapping fails when the catalog was asked for, if its schema is not
there. -/
theorem answer_on_eq_error (hneeds : request ≠ .catalog) (hidle : request.isIdle = false)
    (h : request.schema? (service.catalog.on s).2.state = none) :
    ∃ problem, (service.answer request).on s = (.error problem, (service.catalog.on s).2) := by
  rw [answer_on hneeds hidle]
  rcases catalog_on_cases service s with
    ⟨catalog, ready, hcatalog, hthere⟩ | ⟨problem, ready, hcatalog, hmissing⟩
  · rw [hcatalog] at h ⊢
    rw [Request.schema?_eq_toOption hthere] at h
    dsimp only
    cases hfind : request.find catalog ready.state with
    | error problem => exact ⟨problem, rfl⟩
    | ok entry =>
      rw [hfind] at h
      cases h
  · rw [hcatalog]
    exact ⟨problem, rfl⟩

/-- Any other request but an idle one ends when the catalog was asked for. -/
theorem answer_on_of_none (hidle : request.isIdle = false)
    (h : request.schema? (service.catalog.on s).2.state = none) :
    ((service.answer request).on s).2 = (service.catalog.on s).2 := by
  by_cases hneeds : request = .catalog
  · rw [hneeds, answer_on_catalog]
  · obtain ⟨problem, hanswer⟩ := answer_on_eq_error hneeds hidle h
    rw [hanswer]

end Service

end Codename.Session
