import Codename.Proofs.Session.Request

/-!
# The record of loads

To speak about what a session loads, its source is made to keep a record. This changes no answer,
and what it holds can be told from the situation: the load of the catalog, if it is not there, and
the load of the document of the schema that a request is about, if its mapping is not there.

## Main definitions

* `Load`, `Service.recorded` — the loads of a source, and a service that records them.
* `Service.stepLoads`, `Service.loads` — the loads that one step, or some steps, lead to.
* `Service.neededLoads` — the loads of a request, told from the situation.

## Main statements

* `Service.answer_on_recorded` — recording changes no answer, and records the loads that are needed.
* `Service.run_recorded` — the loads of some steps are those that are recorded when they are taken.
-/

namespace Codename.Session

variable {σ : Type}

/-- A load, with the answer of the source. -/
inductive Load where
  | catalog (answer : Except String Catalog)
  | document (entry : Catalog.Entry) (answer : Except String Mapping.Document)

namespace Load

def isCatalog : Load → Bool
  | .catalog _ => true
  | .document _ _ => false

def isDocument : Load → Bool
  | .catalog _ => false
  | .document _ _ => true

/-- The catalog that was loaded. -/
def catalog? : Load → Option Catalog
  | .catalog (.ok found) => some found
  | _ => none

/-- The mapping that was loaded, under the name of its schema, if the document was valid. -/
def mapping? : Load → Option (String × Mapping)
  | .document entry (.ok found) =>
    (Mapping.ofDocument found).toOption.map fun mapping => (entry.name, mapping)
  | _ => none

end Load

/-- A world with the loads that were made in it. -/
structure Recorded (σ : Type) where
  world : σ
  loads : List Load

/-- A source that records its loads. -/
def Source.recorded (source : Source (StateM σ)) : Source (StateM (Recorded σ)) where
  loadCatalog record :=
    let loaded := source.loadCatalog record.world
    (loaded.1, ⟨loaded.2, record.loads ++ [.catalog loaded.1]⟩)
  loadDocument entry record :=
    let loaded := source.loadDocument entry record.world
    (loaded.1, ⟨loaded.2, record.loads ++ [.document entry loaded.1]⟩)

/-- A selection store that leaves the record as it is. -/
def SelectionStore.recorded (selections : SelectionStore (StateM σ)) :
    SelectionStore (StateM (Recorded σ)) where
  load record :=
    let loaded := selections.load record.world
    (loaded.1, ⟨loaded.2, record.loads⟩)
  save entry record :=
    let saved := selections.save entry record.world
    (saved.1, ⟨saved.2, record.loads⟩)

/-- The service with its loads recorded. -/
def Service.recorded (service : Service (StateM σ)) : Service (StateM (Recorded σ)) where
  source := service.source.recorded
  selections := service.selections.recorded

/-- The same step where loads are recorded. -/
def Step.recorded : Step σ → Step (Recorded σ)
  | .ask request => .ask request
  | .change next => .change fun record => { record with world := next record.world }

/-- A situation with the loads that were made so far. -/
def Situation.recording (s : Situation σ) (loads : List Load) : Situation (Recorded σ) :=
  ⟨s.state, ⟨s.world, loads⟩⟩

namespace Service

/-- The loads that a step leads to. -/
def stepLoads (service : Service (StateM σ)) (s : Situation σ) : Step σ → List Load
  | .ask request => ((service.recorded.answer request).on (s.recording [])).2.world.loads
  | .change _ => []

/-- The loads that some steps lead to, one after another. -/
def loads (service : Service (StateM σ)) : List (Step σ) → Situation σ → List Load
  | [], _ => []
  | step :: steps, s => service.stepLoads s step ++ service.loads steps (service.take s step)

/-- The load of the catalog, if it is not there. -/
def catalogLoads (service : Service (StateM σ)) (s : Situation σ) : List Load :=
  match s.state.catalog? with
  | some _ => []
  | none => [.catalog (service.source.loadCatalog s.world).1]

/-- The load of a document, if the mapping of the schema is not there. -/
def documentLoads (service : Service (StateM σ)) (entry : Catalog.Entry) (s : Situation σ) :
    List Load :=
  match s.state.mappings.get? entry.name with
  | some _ => []
  | none => [.document entry (service.source.loadDocument entry s.world).1]

/-- The loads for the mapping of the schema that a request is about. -/
def obtainLoads (service : Service (StateM σ)) (entry : Catalog.Entry) (ready : Situation σ) :
    Request → List Load
  | .select _ => service.documentLoads entry (ready.selecting service entry)
  | _ => service.documentLoads entry ready

/-- The loads that a request needs: that of the catalog, and then that of the document of the schema
that it is about. -/
def neededLoads (service : Service (StateM σ)) (request : Request) (s : Situation σ) : List Load :=
  if request.isIdle then []
  else
    let ready := (service.catalog.on s).2
    service.catalogLoads s ++
      match request.schema? ready.state with
      | some entry => service.obtainLoads entry ready request
      | none => []

variable {service : Service (StateM σ)} {s ready : Situation σ} {loads : List Load}
  {entry : Catalog.Entry} {request : Request}

@[simp] theorem selecting_recorded :
    (s.recording loads).selecting service.recorded entry =
      (s.selecting service entry).recording loads :=
  rfl

@[simp] theorem opening_recorded {catalog : Catalog} :
    (s.recording loads).opening service.recorded catalog =
      (s.opening service catalog).recording loads := by
  rw [Situation.opening, Situation.opening]
  have hname : rememberedName (service.recorded.selections.load (s.recording loads).world).1 =
      rememberedName (service.selections.load s.world).1 := rfl
  rw [hname]
  cases catalog.initial? (rememberedName (service.selections.load s.world).1) with
  | none => rfl
  | some entry => rfl

theorem catalog_on_recorded :
    service.recorded.catalog.on (s.recording loads) =
      ((service.catalog.on s).1,
        (service.catalog.on s).2.recording (loads ++ service.catalogLoads s)) := by
  rw [catalogLoads]
  cases hcatalog : s.state.catalog? with
  | some catalog =>
    have hthere : (s.recording loads).state.catalog? = some catalog := hcatalog
    rw [catalog_on_of_some hcatalog, catalog_on_of_some hthere, List.append_nil]
  | none =>
    have hmissing : (s.recording loads).state.catalog? = none := hcatalog
    rcases hload : service.source.loadCatalog s.world with ⟨answer, world⟩
    have hrecorded : service.recorded.source.loadCatalog (s.recording loads).world =
        (answer, ⟨world, loads ++ [.catalog answer]⟩) := by
      simp [recorded, Source.recorded, Situation.recording, hload]
    cases answer with
    | error reason =>
      rw [catalog_on_of_error hcatalog hload, catalog_on_of_error hmissing hrecorded]
      rfl
    | ok catalog =>
      rw [catalog_on_of_ok hcatalog hload, catalog_on_of_ok hmissing hrecorded]
      exact congrArg (Prod.mk _) (opening_recorded (s := ⟨s.state, world⟩))

theorem load_on_recorded :
    (service.recorded.load entry).on (s.recording loads) =
      (((service.load entry).on s).1,
        ((service.load entry).on s).2.recording (loads ++ service.documentLoads entry s)) := by
  rw [documentLoads]
  cases hmapping : s.state.mappings.get? entry.name with
  | some mapping =>
    have hthere : (s.recording loads).state.mappings.get? entry.name = some mapping := hmapping
    rw [load_on_of_some hmapping, load_on_of_some hthere, List.append_nil]
  | none =>
    have hmissing : (s.recording loads).state.mappings.get? entry.name = none := hmapping
    rcases hload : service.source.loadDocument entry s.world with ⟨answer, world⟩
    have hrecorded : service.recorded.source.loadDocument entry (s.recording loads).world =
        (answer, ⟨world, loads ++ [.document entry answer]⟩) := by
      simp [recorded, Source.recorded, Situation.recording, hload]
    cases answer with
    | error reason =>
      rw [load_on_of_error hmapping hload, load_on_of_error hmissing hrecorded]
      rfl
    | ok document =>
      cases hvalid : Mapping.ofDocument document with
      | error use =>
        rw [load_on_of_invalid hmapping hload hvalid, load_on_of_invalid hmissing hrecorded hvalid]
        rfl
      | ok mapping =>
        rw [load_on_of_ok hmapping hload hvalid, load_on_of_ok hmissing hrecorded hvalid]
        rfl

theorem obtain_on_recorded (hneeds : request ≠ .catalog) :
    (service.recorded.obtain entry request).on (ready.recording loads) =
      (((service.obtain entry request).on ready).1,
        ((service.obtain entry request).on ready).2.recording
          (loads ++ service.obtainLoads entry ready request)) := by
  cases request with
  | catalog => exact absurd rfl hneeds
  | select name =>
    rw [obtain_on_select, obtain_on_select, selecting_recorded, load_on_recorded, obtainLoads]
  | use schema task =>
    rw [obtain_on_use, obtain_on_use, load_on_recorded, obtainLoads]
    · rcases (service.load entry).on ready with ⟨problem | mapping, s'⟩
      · rfl
      · rfl
    · rintro name ⟨⟩

/-- Recording changes no answer, and what is recorded are the loads that the request needs. -/
theorem answer_on_recorded :
    (service.recorded.answer request).on (s.recording loads) =
      (((service.answer request).on s).1,
        ((service.answer request).on s).2.recording (loads ++ service.neededLoads request s)) := by
  by_cases hidle : request.isIdle = true
  · obtain ⟨response, hanswer⟩ := answer_on_of_isIdle hidle
    rw [hanswer, hanswer, neededLoads, if_pos hidle, List.append_nil]
  · rw [neededLoads, if_neg hidle]
    rw [Bool.not_eq_true] at hidle
    by_cases hneeds : request = .catalog
    · subst hneeds
      rw [answer_on_catalog, answer_on_catalog, catalog_on_recorded]
      simp [Request.schema?_catalog]
    · rw [answer_on hneeds hidle, answer_on hneeds hidle, catalog_on_recorded]
      rcases catalog_on_cases service s with
        ⟨catalog, ready, hcatalog, hthere⟩ | ⟨problem, ready, hcatalog, hmissing⟩
      · have hstate : (ready.recording (loads ++ service.catalogLoads s)).state = ready.state := rfl
        rw [hcatalog]
        dsimp only
        rw [hstate, Request.schema?_eq_toOption hthere]
        cases request.find catalog ready.state with
        | error problem => simp [Except.toOption]
        | ok entry =>
          dsimp only [Except.toOption]
          rw [obtain_on_recorded hneeds, List.append_assoc]
      · have hnone : request.schema? ready.state = none := by
          rw [Request.schema?, hmissing, Option.bind_none]
        rw [hcatalog]
        dsimp only
        rw [hnone, List.append_nil]

theorem stepLoads_ask :
    service.stepLoads s (.ask request) = service.neededLoads request s := by
  rw [stepLoads, answer_on_recorded]
  rfl

/-- A service that records its loads takes the same steps, and what it records are the loads of the
steps. -/
theorem run_recorded (service : Service (StateM σ)) (steps : List (Step σ)) (s : Situation σ)
    (loads : List Load) :
    service.recorded.run (steps.map Step.recorded) (s.recording loads) =
      (service.run steps s).recording (loads ++ service.loads steps s) := by
  induction steps generalizing s loads with
  | nil => rw [Service.loads, List.append_nil]; rfl
  | cons step steps ih =>
    have htake : service.recorded.take (s.recording loads) step.recorded =
        (service.take s step).recording (loads ++ service.stepLoads s step) := by
      cases step with
      | ask request => rw [Step.recorded, take, answer_on_recorded, stepLoads_ask]; rfl
      | change change => rw [stepLoads, List.append_nil]; rfl
    rw [List.map_cons, run, List.foldl_cons, htake, ← run, ih, Service.loads, List.append_assoc]
    rfl

end Service

end Codename.Session
