import Codename.Proofs.Session.Loads
import Codename.Proofs.Session.Selection
import Codename.Proofs.Session.Stores
import Mathlib.Data.List.Perm.Basic

/-!
# The order of requests

Requests for the catalog and requests that name one and the same schema can be asked in any order,
when the source gives the same whenever it is asked. To load the mapping of the schema and to select
it are two moves that do not touch each other, each of the requests makes the same load, and whether
it selects the schema does not depend on those before it.

## Main definitions

* `Source.Fixed`, `Service.Steady` — a source that gives the same whenever it is asked.
* `Service.Unordered` — two requests that can be asked in either order.
* `Request.IsFor` — requests for the catalog and for one schema.
* `Service.answers` — the answers to some requests, one after another.

## Main statements

* `Service.Steady.unordered` — one request before another one.
* `Service.Steady.answers_eq`, `Service.Steady.run_ask_perm`, `Service.Steady.loads_ask_perm` — the
  answers, the end and the loads of any requests.
* `Service.run_perm` — any requests in any order, for a source and a store that share nothing.
-/

namespace Codename.Session

variable {σ τ : Type} {Ready : σ → Prop} {given : Except String Catalog}
  {document : Catalog.Entry → Except String Mapping.Document}

/-- In the worlds with a property, which it does not leave, the source always gives the same. -/
structure Source.Fixed (source : Source (StateM σ)) (Ready : σ → Prop)
    (catalog : Except String Catalog)
    (document : Catalog.Entry → Except String Mapping.Document) : Prop where
  loadCatalog : ∀ world, Ready world →
    (source.loadCatalog world).1 = catalog ∧ Ready (source.loadCatalog world).2
  loadDocument : ∀ entry world, Ready world →
    (source.loadDocument entry world).1 = document entry ∧
      Ready (source.loadDocument entry world).2

/-- The source always gives the same, and what the store does when it saves an entry and what the
source does when it loads a document do not touch each other. -/
structure Service.Steady (service : Service (StateM σ)) (Ready : σ → Prop)
    (catalog : Except String Catalog)
    (document : Catalog.Entry → Except String Mapping.Document) : Prop where
  closed : service.Closed Ready
  fixed : service.source.Fixed Ready catalog document
  apart : ∀ entry saved world,
    service.source.loadDocument entry (service.selections.save saved world).2 =
      ((service.source.loadDocument entry world).1,
        (service.selections.save saved (service.source.loadDocument entry world).2).2)

/-- The requests for the catalog and those that name one schema. -/
inductive Request.IsFor (name : String) : Request → Prop
  | catalog : IsFor name .catalog
  | select : IsFor name (.select name)
  | use (task : Task) : IsFor name (.use (some name) task)

/-- Whether a request has the schema selected when its mapping was asked for: always if it is to
select it, and else if the mapping is there. -/
def Request.selects {α : Type} (answer : Except Problem α) : Request → Bool
  | .select _ => true
  | _ => answer.isOk

/-- The schema was selected, or all left as it is. -/
def Situation.selectingIf (s : Situation σ) (selects : Bool) (service : Service (StateM σ))
    (entry : Catalog.Entry) : Situation σ :=
  if selects then s.selecting service entry else s

theorem Situation.selectingIf_comm (s : Situation σ) (selects selects' : Bool)
    (service : Service (StateM σ)) (entry : Catalog.Entry) :
    (s.selectingIf selects service entry).selectingIf selects' service entry =
      (s.selectingIf selects' service entry).selectingIf selects service entry := by
  cases selects with
  | false => rfl
  | true =>
    cases selects' with
    | false => rfl
    | true => rfl

/-- Another request before a request changes neither its answer nor what both of them leave. -/
structure Service.Unordered (service : Service (StateM σ)) (s : Situation σ)
    (other request : Request) : Prop where
  answer : ((service.answer request).on (service.take s (.ask other))).1 =
    ((service.answer request).on s).1
  take : service.take (service.take s (.ask other)) (.ask request) =
    service.take (service.take s (.ask request)) (.ask other)

namespace Service

/-- The answers to some requests, one after another. -/
def answers (service : Service (StateM σ)) :
    List Request → Situation σ → List (Except Problem Response)
  | [], _ => []
  | request :: requests, s =>
    ((service.answer request).on s).1 :: service.answers requests (service.take s (.ask request))

variable {service : Service (StateM σ)} {s ready : Situation σ} {name : String}
  {request other : Request} {catalog : Catalog} {entry : Catalog.Entry} {problem : Problem}

/-! ### Requests for one schema -/

theorem answer_on_of_catalog_error (hidle : request.isIdle = false)
    (hcatalog : service.catalog.on s = (.error problem, ready)) :
    (service.answer request).on s = (.error problem, ready) := by
  by_cases hneeds : request = .catalog
  · rw [hneeds, answer_on_catalog, hcatalog]
    rfl
  · rw [answer_on hneeds hidle, hcatalog]

/-- A request first of all has the catalog loaded. -/
theorem answer_on_of_catalog_ok (hidle : request.isIdle = false)
    (hcatalog : service.catalog.on s = (.ok catalog, ready))
    (hthere : ready.state.catalog? = some catalog) :
    (service.answer request).on s = (service.answer request).on ready := by
  have hready : service.catalog.on ready = (.ok catalog, ready) := catalog_on_of_some hthere
  by_cases hneeds : request = .catalog
  · rw [hneeds, answer_on_catalog, answer_on_catalog, hcatalog, hready]
  · rw [answer_on hneeds hidle, answer_on hneeds hidle, hcatalog, hready]

theorem answer_on_of_find? (hfor : request.IsFor name) (hneeds : request ≠ .catalog)
    (hidle : request.isIdle = false) (hthere : s.state.catalog? = some catalog) :
    (service.answer request).on s =
      match catalog.find? name with
      | none => (.error (.unknownSchema name), s)
      | some entry =>
        (((service.obtain entry request).on s).1.map request.response,
          ((service.obtain entry request).on s).2) := by
  have hname : request.schemaName? s.state = some name := by
    cases hfor with
    | catalog => exact absurd rfl hneeds
    | select => rfl
    | use task =>
      have htask : task.isIdle = false := hidle
      simp [Request.schemaName?, htask]
  rw [answer_on hneeds hidle, catalog_on_of_some hthere]
  simp only [Request.find, hname]
  cases catalog.find? name with
  | none => rfl
  | some entry => rfl

theorem take_of_isIdle (hidle : request.isIdle = true) (s : Situation σ) :
    service.take s (.ask request) = s := by
  obtain ⟨response, hanswer⟩ := answer_on_of_isIdle hidle
  rw [take, hanswer]

theorem take_catalog_of_some (hthere : s.state.catalog? = some catalog) :
    service.take s (.ask .catalog) = s := by
  rw [take, answer_on_catalog, catalog_on_of_some hthere]

theorem Unordered.of_take_eq (h : ∀ s, service.take s (.ask other) = s) :
    service.Unordered s other request where
  answer := by rw [h]
  take := by rw [h, h]

theorem Unordered.of_idle (hidle : request.isIdle = true) : service.Unordered s other request where
  answer := by
    obtain ⟨response, hanswer⟩ := answer_on_of_isIdle hidle
    rw [hanswer, hanswer]
  take := by rw [take_of_isIdle hidle, take_of_isIdle hidle]

end Service

namespace Service.Steady

variable {service : Service (StateM σ)} {s ready : Situation σ} {name : String}
  {request other : Request} {catalog : Catalog} {entry : Catalog.Entry} {problem : Problem}

/-- To load a mapping and to select a schema do not touch each other. -/
theorem load_on_selecting (h : service.Steady Ready given document) (entry : Catalog.Entry)
    (s : Situation σ) :
    (service.load entry).on (s.selecting service entry) =
      (((service.load entry).on s).1, ((service.load entry).on s).2.selecting service entry) := by
  have hapart : service.source.loadDocument entry (s.selecting service entry).world =
      ((service.source.loadDocument entry s.world).1,
        ((s.fetching service entry).selecting service entry).world) :=
    h.apart entry entry s.world
  have hfetching : (s.selecting service entry).fetching service entry =
      (s.fetching service entry).selecting service entry :=
    congrArg (Situation.mk _) (congrArg Prod.snd hapart)
  have hmappings : (s.selecting service entry).state.mappings = s.state.mappings := rfl
  rw [load_on_eq, load_on_eq, hmappings, hapart, hfetching]
  cases s.state.mappings.get? entry.name with
  | some mapping => rfl
  | none =>
    dsimp only
    cases mappingOf entry (service.source.loadDocument entry s.world).1 with
    | error problem => rfl
    | ok mapping => rfl

theorem load_on_selectingIf (h : service.Steady Ready given document) (entry : Catalog.Entry)
    (s : Situation σ) (selects : Bool) :
    (service.load entry).on (s.selectingIf selects service entry) =
      (((service.load entry).on s).1,
        ((service.load entry).on s).2.selectingIf selects service entry) := by
  cases selects with
  | false => rfl
  | true => exact h.load_on_selecting entry s

/-- A mapping that is asked for again is the same, or is missed for the same reason. -/
theorem load_again (h : service.Steady Ready given document) (entry : Catalog.Entry)
    (hs : Ready s.world) :
    ((service.load entry).on ((service.load entry).on s).2).1 = ((service.load entry).on s).1 := by
  obtain ⟨hgiven, hready⟩ := h.fixed.loadDocument entry s.world hs
  obtain ⟨hagain, -⟩ := h.fixed.loadDocument entry (s.fetching service entry).world hready
  rw [load_on_eq service entry s, hgiven]
  cases hmapping : s.state.mappings.get? entry.name with
  | some mapping => rw [load_on_of_some hmapping]
  | none =>
    have hmissing : (s.fetching service entry).state.mappings.get? entry.name = none := hmapping
    cases hdocument : mappingOf entry (document entry) with
    | error problem =>
      dsimp only
      rw [load_on_eq, hmissing, hagain, hdocument]
    | ok mapping =>
      refine congrArg Prod.fst (load_on_of_some ?_)
      exact (KeyedList.get?_insert _ _ _ _).trans (if_pos rfl)

/-- The catalog that is asked for again is the same, or is missed for the same reason. -/
theorem catalog_again (h : service.Steady Ready given document) (hs : Ready s.world) :
    (service.catalog.on (service.catalog.on s).2).1 = (service.catalog.on s).1 := by
  obtain ⟨hgiven, hready⟩ := h.fixed.loadCatalog s.world hs
  obtain ⟨hagain, -⟩ := h.fixed.loadCatalog (s.asking service).world hready
  rw [catalog_on_eq service s, hgiven]
  cases hcatalog : s.state.catalog? with
  | some catalog => rw [catalog_on_of_some hcatalog]
  | none =>
    have hmissing : (s.asking service).state.catalog? = none := hcatalog
    cases given with
    | error reason =>
      dsimp only
      rw [catalog_on_eq, hmissing, hagain]
    | ok catalog => exact congrArg Prod.fst (catalog_on_of_some Situation.opening_catalog?)

/-- To have the mapping of a schema loaded and the schema selected comes down to the load, and then
the selection, if the request selects. -/
theorem obtain_on_eq (h : service.Steady Ready given document) (hneeds : request ≠ .catalog)
    (entry : Catalog.Entry) (s : Situation σ) :
    (service.obtain entry request).on s =
      (((service.load entry).on s).1, ((service.load entry).on s).2.selectingIf
        (request.selects ((service.load entry).on s).1) service entry) := by
  cases request with
  | catalog => exact absurd rfl hneeds
  | select name =>
    rw [obtain_on_select]
    exact h.load_on_selecting entry s
  | use schema task =>
    rw [obtain_on_use]
    rcases (service.load entry).on s with ⟨problem | mapping, s'⟩
    · rfl
    · rfl

/-- A request about a schema of the catalog comes down to the load, and then the selection. -/
theorem answer_on_of_find?_eq_some (h : service.Steady Ready given document)
    (hfor : request.IsFor name) (hneeds : request ≠ .catalog) (hidle : request.isIdle = false)
    (hthere : s.state.catalog? = some catalog) (hentry : catalog.find? name = some entry) :
    (service.answer request).on s =
      (((service.load entry).on s).1.map request.response,
        ((service.load entry).on s).2.selectingIf
          (request.selects ((service.load entry).on s).1) service entry) := by
  rw [answer_on_of_find? hfor hneeds hidle hthere, hentry]
  dsimp only
  rw [h.obtain_on_eq hneeds]

theorem take_of_find?_eq_some (h : service.Steady Ready given document)
    (hfor : request.IsFor name) (hneeds : request ≠ .catalog) (hidle : request.isIdle = false)
    (hthere : s.state.catalog? = some catalog) (hentry : catalog.find? name = some entry) :
    service.take s (.ask request) =
      ((service.load entry).on s).2.selectingIf
        (request.selects ((service.load entry).on s).1) service entry :=
  congrArg Prod.snd (h.answer_on_of_find?_eq_some hfor hneeds hidle hthere hentry)

/-! ### Two requests -/

/-- Once the catalog is there, two requests for one schema can be asked in any order. -/
theorem unordered_of_some (h : service.Steady Ready given document) (hs : Ready s.world)
    (hthere : s.state.catalog? = some catalog) (hother : other.IsFor name)
    (hfor : request.IsFor name) (hidle' : other.isIdle = false) (hidle : request.isIdle = false) :
    service.Unordered s other request := by
  have hkept : (service.take s (.ask other)).state.catalog? = some catalog :=
    (keeps_take service s (.ask other)).catalog?_eq hthere
  have hkept' : (service.take s (.ask request)).state.catalog? = some catalog :=
    (keeps_take service s (.ask request)).catalog?_eq hthere
  by_cases hneeds' : other = .catalog
  · subst hneeds'
    constructor
    · rw [take_catalog_of_some hthere]
    · rw [take_catalog_of_some hthere, take_catalog_of_some hkept']
  by_cases hneeds : request = .catalog
  · subst hneeds
    constructor
    · rw [answer_on_catalog, answer_on_catalog, catalog_on_of_some hthere,
        catalog_on_of_some hkept]
    · rw [take_catalog_of_some hthere, take_catalog_of_some hkept]
  cases hentry : catalog.find? name with
  | none =>
    -- both fail, and leave all as it was
    have hon' : (service.answer other).on s = (.error (.unknownSchema name), s) := by
      rw [answer_on_of_find? hother hneeds' hidle' hthere, hentry]
    have hon : (service.answer request).on s = (.error (.unknownSchema name), s) := by
      rw [answer_on_of_find? hfor hneeds hidle hthere, hentry]
    have hsame' : service.take s (.ask other) = s := congrArg Prod.snd hon'
    have hsame : service.take s (.ask request) = s := congrArg Prod.snd hon
    constructor
    · rw [hsame']
    · rw [hsame', hsame, hsame']
  | some entry =>
    -- the second load gives what the first one gave, and the selections commute
    have hafter' := h.take_of_find?_eq_some hother hneeds' hidle' hthere hentry
    have hafter := h.take_of_find?_eq_some hfor hneeds hidle hthere hentry
    constructor
    · rw [h.answer_on_of_find?_eq_some hfor hneeds hidle hkept hentry, hafter',
        h.load_on_selectingIf, h.load_again entry hs,
        h.answer_on_of_find?_eq_some hfor hneeds hidle hthere hentry]
    · rw [h.take_of_find?_eq_some hfor hneeds hidle hkept hentry,
        h.take_of_find?_eq_some hother hneeds' hidle' hkept' hentry, hafter', hafter,
        h.load_on_selectingIf, h.load_on_selectingIf, h.load_again entry hs,
        Situation.selectingIf_comm]

/-- Two requests for one schema can be asked in any order. -/
theorem unordered (h : service.Steady Ready given document) (hs : Ready s.world)
    (hother : other.IsFor name) (hfor : request.IsFor name) :
    service.Unordered s other request := by
  cases hidle' : other.isIdle with
  | true => exact .of_take_eq (take_of_isIdle hidle')
  | false =>
    cases hidle : request.isIdle with
    | true => exact .of_idle hidle
    | false =>
      have hready : Ready (service.catalog.on s).2.world := h.closed.invariant.catalog_on hs
      rcases catalog_on_cases service s with
        ⟨catalog, ready, hcatalog, hthere⟩ | ⟨problem, ready, hcatalog, -⟩
      · -- the one that is asked first has the catalog loaded, and then it is there
        rw [hcatalog] at hready
        obtain ⟨hanswer, htake⟩ := h.unordered_of_some hready hthere hother hfor hidle' hidle
        have hfirst' : service.take s (.ask other) = service.take ready (.ask other) :=
          congrArg Prod.snd (answer_on_of_catalog_ok hidle' hcatalog hthere)
        have hfirst : service.take s (.ask request) = service.take ready (.ask request) :=
          congrArg Prod.snd (answer_on_of_catalog_ok hidle hcatalog hthere)
        constructor
        · rw [hfirst', hanswer, answer_on_of_catalog_ok hidle hcatalog hthere]
        · rw [hfirst', htake, hfirst]
      · -- both fail with the load of the catalog, again and again
        have hagain : (service.catalog.on ready).1 = .error problem := by
          have hagain := h.catalog_again hs
          rwa [hcatalog] at hagain
        have hcatalog' : service.catalog.on ready =
            (.error problem, (service.catalog.on ready).2) := Prod.ext hagain rfl
        have hfirst' : service.take s (.ask other) = ready :=
          congrArg Prod.snd (answer_on_of_catalog_error hidle' hcatalog)
        have hfirst : service.take s (.ask request) = ready :=
          congrArg Prod.snd (answer_on_of_catalog_error hidle hcatalog)
        constructor
        · rw [hfirst', answer_on_of_catalog_error hidle hcatalog',
            answer_on_of_catalog_error hidle hcatalog]
        · rw [hfirst', hfirst, take, take, answer_on_of_catalog_error hidle hcatalog',
            answer_on_of_catalog_error hidle' hcatalog']

/-! ### Any requests -/

theorem ready_take (h : service.Steady Ready given document) (hs : Ready s.world)
    (request : Request) : Ready (service.take s (.ask request)).world :=
  h.closed.invariant.answer_on hs

/-- Each request has the answer that it has if it is asked first. -/
theorem answers_eq (h : service.Steady Ready given document) (hs : Ready s.world)
    {requests : List Request} (hfor : ∀ request ∈ requests, request.IsFor name) :
    service.answers requests s =
      requests.map fun request => ((service.answer request).on s).1 := by
  induction requests generalizing s with
  | nil => rfl
  | cons request requests ih =>
    have hfirst : request.IsFor name := hfor request List.mem_cons_self
    have hrest : ∀ request ∈ requests, request.IsFor name :=
      fun request hmem => hfor request (List.mem_cons_of_mem _ hmem)
    rw [answers, ih (h.ready_take hs request) hrest, List.map_cons]
    congr 1
    refine List.map_congr_left fun later hmem => ?_
    exact (h.unordered hs hfirst (hrest later hmem)).answer

/-- The requests leave the same in any order. -/
theorem run_ask_perm (h : service.Steady Ready given document) (hs : Ready s.world)
    {requests ordered : List Request} (hperm : ordered.Perm requests)
    (hfor : ∀ request ∈ ordered, request.IsFor name) :
    service.run (ordered.map .ask) s = service.run (requests.map .ask) s := by
  induction hperm generalizing s with
  | nil => rfl
  | cons request _ ih =>
    exact ih (h.ready_take hs request) fun later hmem => hfor later (List.mem_cons_of_mem _ hmem)
  | swap request other rest =>
    have htake := (h.unordered hs (hfor other List.mem_cons_self)
      (hfor request (List.mem_cons_of_mem _ List.mem_cons_self))).take
    exact congrArg (service.run (rest.map .ask)) htake
  | trans hperm _ ih₁ ih₂ =>
    exact (ih₁ hs hfor).trans (ih₂ hs fun request hmem => hfor request (hperm.mem_iff.2 hmem))

theorem recorded (h : service.Steady Ready given document) :
    service.recorded.Steady (fun record => Ready record.world) given document where
  closed :=
    { loadCatalog := fun record => h.closed.loadCatalog record.world
      loadDocument := fun entry record => h.closed.loadDocument entry record.world
      load := fun record => h.closed.load record.world
      save := fun entry record => h.closed.save entry record.world }
  fixed :=
    { loadCatalog := fun record => h.fixed.loadCatalog record.world
      loadDocument := fun entry record => h.fixed.loadDocument entry record.world }
  apart entry saved record := by
    have hapart := h.apart entry saved record.world
    simp only [Service.recorded, Source.recorded, SelectionStore.recorded]
    rw [hapart]

/-- The loads are the same too, for they are the same when they are recorded. -/
theorem loads_ask_perm (h : service.Steady Ready given document) (hs : Ready s.world)
    {requests ordered : List Request} (hperm : ordered.Perm requests)
    (hfor : ∀ request ∈ ordered, request.IsFor name) :
    service.loads (ordered.map .ask) s = service.loads (requests.map .ask) s := by
  have hsteps : ∀ requests : List Request, (requests.map (Step.ask (σ := σ))).map Step.recorded =
      requests.map .ask := fun requests => List.map_map
  have hrecorded := h.recorded.run_ask_perm (s := s.recording []) hs hperm hfor
  rw [← hsteps, ← hsteps, run_recorded, run_recorded] at hrecorded
  exact congrArg (fun s => s.world.loads) hrecorded

end Service.Steady

namespace Service

theorem ofParts_steady {source : Source (StateM σ)} (hfixed : source.Fixed Ready given document)
    (selections : SelectionStore (StateM τ)) :
    (ofParts source selections).Steady (fun world => Ready world.1) given document where
  closed :=
    { loadCatalog := fun world hs => (hfixed.loadCatalog world.1 hs).2
      loadDocument := fun entry world hs => (hfixed.loadDocument entry world.1 hs).2
      load := fun _ hs => hs
      save := fun _ _ hs => hs }
  fixed :=
    { loadCatalog := fun world => hfixed.loadCatalog world.1
      loadDocument := fun entry world => hfixed.loadDocument entry world.1 }
  apart _ _ _ := rfl

/-- Requests for the catalog and for one schema can be asked in any order, from any situation on
from which the source always gives the same, be it that it fails. Each of them has the answer that
it has if it is asked first. All that the session has loaded and selected, and all of the world with
the entry that the store holds, is the same in the end, and so are the loads on the way. -/
theorem run_perm {source : Source (StateM σ)} (selections : SelectionStore (StateM τ))
    (hfixed : source.Fixed Ready given document) (s : Situation (σ × τ)) (hs : Ready s.world.1)
    (name : String) {requests ordered : List Request} (hperm : ordered.Perm requests)
    (hfor : ∀ request ∈ requests, request.IsFor name) :
    let service := ofParts source selections
    service.answers ordered s = ordered.map (fun request => ((service.answer request).on s).1) ∧
      service.run (ordered.map .ask) s = service.run (requests.map .ask) s ∧
      service.loads (ordered.map .ask) s = service.loads (requests.map .ask) s := by
  intro service
  have hsteady : service.Steady (fun world => Ready world.1) given document :=
    ofParts_steady hfixed selections
  have hfor' : ∀ request ∈ ordered, request.IsFor name :=
    fun request hmem => hfor request (hperm.mem_iff.1 hmem)
  exact ⟨hsteady.answers_eq hs hfor', hsteady.run_ask_perm hs hperm hfor',
    hsteady.loads_ask_perm hs hperm hfor'⟩

end Service

/-- A shelf gives the same as long as its texts are the same. -/
theorem Shelf.source_fixed (shelf : Shelf) :
    Shelf.source.Fixed
      (fun other => other.catalog? = shelf.catalog? ∧ other.documents = shelf.documents)
      shelf.readCatalog (fun entry => shelf.readDocument entry.locator) where
  loadCatalog other hsame := by
    obtain ⟨hcatalog, hdocuments⟩ := hsame
    refine ⟨?_, hcatalog, hdocuments⟩
    show other.readCatalog = shelf.readCatalog
    rw [readCatalog, readCatalog, hcatalog]
  loadDocument entry other hsame := by
    obtain ⟨hcatalog, hdocuments⟩ := hsame
    refine ⟨?_, hcatalog, hdocuments⟩
    show other.readDocument entry.locator = shelf.readDocument entry.locator
    rw [readDocument, readDocument, hdocuments]

/-- The document of the schema is missed, so that one of the requests selects it and the others do
not. -/
theorem Service.run_perm_halfStocked :
    let service := ofParts Shelf.source Shelf.selections
    let s : Situation (Shelf × Shelf) := .start (Shelf.halfStocked, Shelf.halfStocked)
    let requests : List Request :=
      [.use (some "gone") (.encrypt "SELECT 1"), .catalog, .select "gone"]
    let ordered : List Request :=
      [.select "gone", .use (some "gone") (.encrypt "SELECT 1"), .catalog]
    (Shelf.halfStocked.catalog? = Shelf.halfStocked.catalog? ∧
        Shelf.halfStocked.documents = Shelf.halfStocked.documents) ∧
      ordered.Perm requests ∧ (∀ request ∈ requests, request.IsFor "gone") ∧
      (service.run (requests.map .ask) s).state.selected? = some ⟨"gone", "gone.json", false⟩ ∧
      (service.run (requests.map .ask) s).world.2.remembered? =
        some ⟨"gone", "gone.json", false⟩ ∧
      service.answers ordered s = ordered.map (fun request => ((service.answer request).on s).1) ∧
      service.run (ordered.map .ask) s = service.run (requests.map .ask) s ∧
      service.loads (ordered.map .ask) s = service.loads (requests.map .ask) s := by
  intro service s requests ordered
  have hperm : ordered.Perm requests :=
    (List.Perm.swap _ _ _).trans (List.Perm.cons _ (List.Perm.swap _ _ _))
  have hfor : ∀ request ∈ requests, request.IsFor "gone" := by
    simp only [requests, List.forall_mem_cons, List.not_mem_nil, false_implies, implies_true,
      and_true]
    exact ⟨.use _, .catalog, .select⟩
  refine ⟨⟨rfl, rfl⟩, hperm, hfor, by decide +kernel, by decide +kernel, ?_⟩
  exact run_perm Shelf.selections (Shelf.source_fixed Shelf.halfStocked) s ⟨rfl, rfl⟩ "gone" hperm
    hfor

end Codename.Session
