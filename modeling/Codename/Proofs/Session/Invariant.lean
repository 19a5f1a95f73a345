import Codename.Proofs.Session.Request

/-!
# Invariants of sessions

A request moves a session in few ways: the source is asked for the catalog or for a document, what
it gave is kept, and a schema is selected. What each of these moves keeps is kept by all requests,
and in the course of any steps if the changes of the world keep it too.

## Main definitions

* `Situation.asking`, `Situation.fetching` — what is left when the source was asked for the catalog
  or for a document.
* `Service.Invariant` — what every move of a session keeps.

## Main statements

* `Service.catalog_on_moves`, `Service.load_on_moves` — the moves that a load consists of, and
  `Service.catalog_on_eq`, `Service.load_on_eq` by what the source gives.
* `Service.Invariant.run` — an invariant holds in the course of any steps.
* `Service.answer_on_ok` — what an answered request leaves.
* `Service.answer_on_use_failed`, `Service.select_on_failed` — what a task leaves that fails, and
  what a schema does that cannot be selected.
-/

namespace Codename.Session

variable {σ : Type}

namespace Situation

/-- The source was asked for the catalog. -/
def asking (s : Situation σ) (service : Service (StateM σ)) : Situation σ :=
  ⟨s.state, (service.source.loadCatalog s.world).2⟩

/-- The source was asked for the document of a schema. -/
def fetching (s : Situation σ) (service : Service (StateM σ)) (entry : Catalog.Entry) :
    Situation σ :=
  ⟨s.state, (service.source.loadDocument entry s.world).2⟩

end Situation

namespace Service

variable {service : Service (StateM σ)} {s ready : Situation σ} {entry : Catalog.Entry}
  {request : Request} {schema : Option String} {task : Task} {response : Response}
  {mapping : Mapping}

/-! ### The moves of a load -/

/-- The catalog is there, or the source is asked for it, and it opens the session if it is given. -/
theorem catalog_on_moves (service : Service (StateM σ)) (s : Situation σ) :
    (∃ catalog, s.state.catalog? = some catalog ∧ service.catalog.on s = (.ok catalog, s)) ∨
      (s.state.catalog? = none ∧
        ∃ problem, service.catalog.on s = (.error problem, s.asking service)) ∨
      (s.state.catalog? = none ∧
        ∃ catalog, service.catalog.on s =
          (.ok catalog, (s.asking service).opening service catalog)) := by
  cases hcatalog : s.state.catalog? with
  | some catalog => exact .inl ⟨catalog, rfl, catalog_on_of_some hcatalog⟩
  | none =>
    rcases hload : service.source.loadCatalog s.world with ⟨reason | catalog, world⟩
    · have hasking : s.asking service = ⟨s.state, world⟩ := by rw [Situation.asking, hload]
      exact .inr (.inl ⟨rfl, _, hasking ▸ catalog_on_of_error hcatalog hload⟩)
    · have hasking : s.asking service = ⟨s.state, world⟩ := by rw [Situation.asking, hload]
      exact .inr (.inr ⟨rfl, catalog, hasking ▸ catalog_on_of_ok hcatalog hload⟩)

/-- The mapping is there, or the source is asked for its document, and the mapping is kept if it is
valid. -/
theorem load_on_moves (service : Service (StateM σ)) (entry : Catalog.Entry) (s : Situation σ) :
    (∃ mapping, s.state.mappings.get? entry.name = some mapping ∧
        (service.load entry).on s = (.ok mapping, s)) ∨
      (s.state.mappings.get? entry.name = none ∧
        ∃ problem, (service.load entry).on s = (.error problem, s.fetching service entry)) ∨
      (s.state.mappings.get? entry.name = none ∧
        ∃ mapping, (service.load entry).on s =
          (.ok mapping, (s.fetching service entry).keeping entry.name mapping)) := by
  cases hmapping : s.state.mappings.get? entry.name with
  | some mapping => exact .inl ⟨mapping, rfl, load_on_of_some hmapping⟩
  | none =>
    rcases hload : service.source.loadDocument entry s.world with ⟨reason | document, world⟩
    · have hfetching : s.fetching service entry = ⟨s.state, world⟩ := by
        rw [Situation.fetching, hload]
      exact .inr (.inl ⟨rfl, _, hfetching ▸ load_on_of_error hmapping hload⟩)
    · have hfetching : s.fetching service entry = ⟨s.state, world⟩ := by
        rw [Situation.fetching, hload]
      cases hvalid : Mapping.ofDocument document with
      | error use =>
        exact .inr (.inl ⟨rfl, _, hfetching ▸ load_on_of_invalid hmapping hload hvalid⟩)
      | ok mapping =>
        exact .inr (.inr ⟨rfl, mapping, hfetching ▸ load_on_of_ok hmapping hload hvalid⟩)

/-- The catalog by what the source gives in the world of a session. -/
theorem catalog_on_eq (service : Service (StateM σ)) (s : Situation σ) :
    service.catalog.on s =
      match s.state.catalog? with
      | some catalog => (.ok catalog, s)
      | none =>
        match (service.source.loadCatalog s.world).1 with
        | .error reason => (.error (.catalogUnavailable reason), s.asking service)
        | .ok catalog => (.ok catalog, (s.asking service).opening service catalog) := by
  cases hcatalog : s.state.catalog? with
  | some catalog => exact catalog_on_of_some hcatalog
  | none =>
    rw [Situation.asking]
    rcases hload : service.source.loadCatalog s.world with ⟨reason | catalog, world⟩
    · exact catalog_on_of_error hcatalog hload
    · exact catalog_on_of_ok hcatalog hload

/-- The mapping in what the source gave for a schema. -/
def mappingOf (entry : Catalog.Entry) :
    Except String Mapping.Document → Except Problem Mapping
  | .error reason => .error (.mappingUnavailable entry.name reason)
  | .ok document => (Mapping.ofDocument document).mapError .invalidMapping

/-- The mapping of a schema by what the source gives in the world of a session. -/
theorem load_on_eq (service : Service (StateM σ)) (entry : Catalog.Entry) (s : Situation σ) :
    (service.load entry).on s =
      match s.state.mappings.get? entry.name with
      | some mapping => (.ok mapping, s)
      | none =>
        match mappingOf entry (service.source.loadDocument entry s.world).1 with
        | .error problem => (.error problem, s.fetching service entry)
        | .ok mapping =>
          (.ok mapping, (s.fetching service entry).keeping entry.name mapping) := by
  cases hmapping : s.state.mappings.get? entry.name with
  | some mapping => exact load_on_of_some hmapping
  | none =>
    rw [Situation.fetching]
    rcases hload : service.source.loadDocument entry s.world with ⟨reason | document, world⟩
    · exact load_on_of_error hmapping hload
    · cases hvalid : Mapping.ofDocument document with
      | error use =>
        have hmissed : mappingOf entry (.ok document) = .error (.invalidMapping use) := by
          rw [mappingOf, hvalid]
          rfl
        rw [hmissed]
        exact load_on_of_invalid hmapping hload hvalid
      | ok mapping =>
        have hfound : mappingOf entry (.ok document) = .ok mapping := by
          rw [mappingOf, hvalid]
          rfl
        rw [hfound]
        exact load_on_of_ok hmapping hload hvalid

/-- The mapping of a schema that was not loaded before is in what the source gives. -/
theorem fst_load_on (hmissing : s.state.mappings.get? entry.name = none) :
    ((service.load entry).on s).1 =
      mappingOf entry (service.source.loadDocument entry s.world).1 := by
  rw [load_on_eq, hmissing]
  cases mappingOf entry (service.source.loadDocument entry s.world).1 with
  | error problem => rfl
  | ok mapping => rfl

/-- The mapping of a schema that is named is that of the first schema with the name. -/
theorem fst_mapping_on {catalog : Catalog} {name : String}
    (hcatalog : service.catalog.on s = (.ok catalog, ready))
    (hentry : catalog.find? name = some entry) :
    ((service.mapping (some name)).on s).1 = ((service.load entry).on ready).1 := by
  rw [mapping_on, hcatalog]
  simp only [Option.some_or, hentry]
  rcases (service.load entry).on ready with ⟨problem | mapping, s'⟩
  · rfl
  · rfl

/-- A load of a mapping leaves the catalog and the selected schema as they are. -/
theorem state_load_on (service : Service (StateM σ)) (entry : Catalog.Entry) (s : Situation σ) :
    ((service.load entry).on s).2.state.catalog? = s.state.catalog? ∧
      ((service.load entry).on s).2.state.selected? = s.state.selected? := by
  obtain ⟨mapping, -, hload⟩ | ⟨-, problem, hload⟩ | ⟨-, mapping, hload⟩ :=
    load_on_moves service entry s
  · rw [hload]
    exact ⟨rfl, rfl⟩
  · rw [hload]
    exact ⟨rfl, rfl⟩
  · rw [hload]
    exact ⟨rfl, rfl⟩

/-- A mapping that was asked for is there afterwards. -/
theorem get?_load_on (h : ((service.load entry).on s).1 = .ok mapping) :
    ((service.load entry).on s).2.state.mappings.get? entry.name = some mapping := by
  obtain ⟨found, hfound, hload⟩ | ⟨-, problem, hload⟩ | ⟨-, found, hload⟩ :=
    load_on_moves service entry s
  · rw [hload] at h ⊢
    cases h
    exact hfound
  · rw [hload] at h
    cases h
  · rw [hload] at h ⊢
    cases h
    exact (KeyedList.get?_insert _ _ _ _).trans (if_pos rfl)

/-- A load that fails has asked the source for the document, and nothing else. -/
theorem load_on_failed (h : ((service.load entry).on s).1.isOk = false) :
    s.state.mappings.get? entry.name = none ∧
      ((service.load entry).on s).2 = s.fetching service entry := by
  obtain ⟨mapping, -, hload⟩ | ⟨hmissing, problem, hload⟩ | ⟨-, mapping, hload⟩ :=
    load_on_moves service entry s
  · rw [hload] at h
    cases h
  · rw [hload]
    exact ⟨hmissing, rfl⟩
  · rw [hload] at h
    cases h

/-! ### Invariants -/

/-- Every move of a session keeps the property. -/
structure Invariant (service : Service (StateM σ)) (P : Situation σ → Prop) : Prop where
  asking : ∀ s, P s → P (s.asking service)
  opening : ∀ s catalog, P s → s.state.catalog? = none → P (s.opening service catalog)
  fetching : ∀ s entry, P s → P (s.fetching service entry)
  keeping : ∀ s name mapping, P s → P (s.keeping name mapping)
  /-- A schema is selected when it was found in the catalog. -/
  selecting : ∀ s catalog entry, P s → s.state.catalog? = some catalog →
    catalog.find? entry.name = some entry → P (s.selecting service entry)

namespace Invariant

variable {P : Situation σ → Prop}

theorem catalog_on (h : service.Invariant P) (hs : P s) : P (service.catalog.on s).2 := by
  obtain ⟨catalog, -, hcatalog⟩ | ⟨-, problem, hcatalog⟩ | ⟨hnone, catalog, hcatalog⟩ :=
    catalog_on_moves service s
  · rwa [hcatalog]
  · rw [hcatalog]
    exact h.asking s hs
  · rw [hcatalog]
    exact h.opening _ catalog (h.asking s hs) hnone

theorem load_on (h : service.Invariant P) (hs : P s) : P ((service.load entry).on s).2 := by
  obtain ⟨mapping, -, hload⟩ | ⟨-, problem, hload⟩ | ⟨-, mapping, hload⟩ :=
    load_on_moves service entry s
  · rwa [hload]
  · rw [hload]
    exact h.fetching s entry hs
  · rw [hload]
    exact h.keeping _ _ mapping (h.fetching s entry hs)

theorem obtain_on (h : service.Invariant P) (hs : P ready)
    (habout : request.schema? ready.state = some entry) :
    P ((service.obtain entry request).on ready).2 := by
  obtain ⟨-, -, catalog, hcatalog, hentry, -⟩ := Request.schema?_eq_some habout
  cases request with
  | catalog =>
    rw [Request.schema?_catalog] at habout
    cases habout
  | select name =>
    rw [obtain_on_select]
    exact h.load_on (h.selecting ready catalog entry hs hcatalog hentry)
  | use schema task =>
    have hloaded : P ((service.load entry).on ready).2 := h.load_on hs
    have hthere := (state_load_on service entry ready).1.trans hcatalog
    rw [obtain_on_use]
    rcases hload : (service.load entry).on ready with ⟨problem | mapping, s'⟩
    · rwa [hload] at hloaded
    · rw [hload] at hloaded hthere
      exact h.selecting s' catalog entry hloaded hthere hentry

theorem answer_on (h : service.Invariant P) (hs : P s) : P ((service.answer request).on s).2 := by
  cases hidle : request.isIdle with
  | true =>
    obtain ⟨response, hanswer⟩ := answer_on_of_isIdle hidle
    rwa [hanswer]
  | false =>
    have hready : P (service.catalog.on s).2 := h.catalog_on hs
    cases habout : request.schema? (service.catalog.on s).2.state with
    | none => rwa [answer_on_of_none hidle habout]
    | some entry =>
      rw [answer_on_of_some habout]
      exact h.obtain_on hready habout

/-- An invariant holds in the course of any steps. -/
theorem run (h : service.Invariant P) {steps : List (Step σ)}
    (hchange : ∀ change, .change change ∈ steps → ∀ s, P s → P ⟨s.state, change s.world⟩)
    (hs : P s) : P (service.run steps s) := by
  induction steps generalizing s with
  | nil => exact hs
  | cons step steps ih =>
    refine ih (fun change hmem => hchange change (List.mem_cons_of_mem _ hmem)) ?_
    cases step with
    | ask request => exact h.answer_on hs
    | change change => exact hchange change (List.mem_cons_self ..) s hs

end Invariant

/-! ### What requests leave -/

theorem obtain_on_ok (hneeds : request ≠ .catalog)
    (hobtain : ((service.obtain entry request).on ready).1 = .ok mapping) :
    ((service.obtain entry request).on ready).2.state.catalog? = ready.state.catalog? ∧
      ((service.obtain entry request).on ready).2.state.mappings.get? entry.name = some mapping ∧
      ((service.obtain entry request).on ready).2.state.selected? = some entry := by
  cases request with
  | catalog => exact absurd rfl hneeds
  | select name =>
    rw [obtain_on_select] at hobtain ⊢
    obtain ⟨hcatalog, hselected⟩ := state_load_on service entry (ready.selecting service entry)
    exact ⟨hcatalog, get?_load_on hobtain, hselected⟩
  | use schema task =>
    obtain ⟨hcatalog, -⟩ := state_load_on service entry ready
    rw [obtain_on_use] at hobtain ⊢
    rcases hload : (service.load entry).on ready with ⟨problem | found, s'⟩
    · rw [hload] at hobtain
      cases hobtain
    · have hok : ((service.load entry).on ready).1 = .ok found := by rw [hload]
      have hfound := get?_load_on hok
      rw [hload] at hobtain hcatalog hfound
      cases hobtain
      exact ⟨hcatalog, hfound, rfl⟩

/-- A request that was answered has found its schema, whose mapping is there and which is selected
afterwards. -/
theorem answer_on_ok (hneeds : request ≠ .catalog) (hidle : request.isIdle = false)
    (hanswer : ((service.answer request).on s).1 = .ok response) :
    ∃ entry mapping, request.schema? (service.catalog.on s).2.state = some entry ∧
      response = request.response mapping ∧
      ((service.answer request).on s).2.state.catalog? =
        (service.catalog.on s).2.state.catalog? ∧
      ((service.answer request).on s).2.state.mappings.get? entry.name = some mapping ∧
      ((service.answer request).on s).2.state.selected? = some entry := by
  cases habout : request.schema? (service.catalog.on s).2.state with
  | none =>
    obtain ⟨problem, hfailed⟩ := answer_on_eq_error hneeds hidle habout
    rw [hfailed] at hanswer
    cases hanswer
  | some entry =>
    rw [answer_on_of_some habout] at hanswer ⊢
    cases hobtain : ((service.obtain entry request).on (service.catalog.on s).2).1 with
    | error problem =>
      rw [hobtain] at hanswer
      cases hanswer
    | ok mapping =>
      rw [hobtain] at hanswer
      cases hanswer
      obtain ⟨hcatalog, hmapping, hselected⟩ := obtain_on_ok hneeds hobtain
      exact ⟨entry, mapping, rfl, rfl, hcatalog, hmapping, hselected⟩

/-- A task that failed has left all as the catalog left it, or has asked the source for the document
of its schema besides. -/
theorem answer_on_use_failed
    (hfailed : ((service.answer (.use schema task)).on s).1.isOk = false) :
    (Request.use schema task).isIdle = false ∧
      (((service.answer (.use schema task)).on s).2 = (service.catalog.on s).2 ∨
        ∃ entry, ((service.answer (.use schema task)).on s).2 =
          (service.catalog.on s).2.fetching service entry) := by
  cases hidle : (Request.use schema task).isIdle with
  | true =>
    obtain ⟨response, hanswer⟩ := answer_on_of_isIdle hidle
    rw [hanswer] at hfailed
    cases hfailed
  | false =>
    refine ⟨rfl, ?_⟩
    cases habout : (Request.use schema task).schema? (service.catalog.on s).2.state with
    | none => exact .inl (answer_on_of_none hidle habout)
    | some entry =>
      rw [answer_on_of_some habout, obtain_on_use] at hfailed ⊢
      obtain ⟨mapping, -, hload⟩ | ⟨-, problem, hload⟩ | ⟨-, mapping, hload⟩ :=
        load_on_moves service entry (service.catalog.on s).2
      · rw [hload] at hfailed
        cases hfailed
      · rw [hload]
        exact .inr ⟨entry, rfl⟩
      · rw [hload] at hfailed
        cases hfailed

/-- A schema that could not be selected once the catalog was there is not listed, and nothing has
happened, or it was selected and then the source was asked for its document. -/
theorem select_on_failed {catalog : Catalog} {name : String}
    (hcatalog : s.state.catalog? = some catalog)
    (hfailed : ((service.select name).on s).1.isOk = false) :
    (catalog.find? name = none ∧ ((service.select name).on s).2 = s) ∨
      ∃ entry, catalog.find? name = some entry ∧
        ((service.select name).on s).2 = (s.selecting service entry).fetching service entry := by
  have hon := select_on service name s
  rw [catalog_on_of_some hcatalog] at hon
  dsimp only at hon
  cases hfind : catalog.find? name with
  | none =>
    rw [hfind] at hon
    exact .inl ⟨rfl, congrArg Prod.snd hon⟩
  | some entry =>
    rw [hfind] at hon
    dsimp only at hon
    rw [hon] at hfailed ⊢
    exact .inr ⟨entry, rfl, (load_on_failed hfailed).2⟩

end Service

end Codename.Session
