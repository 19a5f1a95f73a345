import Codename.Proofs.Mapping.Names
import Codename.Proofs.Session.Record

/-!
# What a session loads

A session keeps what it was able to load, and asks its source only for what it does not have. So
each load is due when it is made, and what a session has is what its loads have given it: a failed
load leaves nothing behind, and after one that succeeded nothing is asked for again, whatever the
source would answer by then.

## Main definitions

* `Kept` — what a session has loaded.
* `Kept.Due`, `Kept.keep` — when a load is made, and what is kept of it.
* `Keeps` — loads one after another, each when it is due, and what is kept in the end.

## Main statements

* `Keeps.toList_catalog?`, `Keeps.entries_mappings` — what is kept is what was loaded.
* `Service.keeps_answer`, `Service.keeps_run` — the loads of a request, and of any steps, are due.
* `Service.load_once` — each thing is loaded successfully at most once.
-/

namespace Codename.Session

variable {σ : Type}

/-- Each load of a document gives a mapping or none. -/
theorem Load.countP_isDocument (loads : List Load) :
    loads.countP Load.isDocument =
      (loads.filterMap Load.mapping?).length +
        loads.countP (fun load => load.isDocument && load.mapping?.isNone) := by
  induction loads with
  | nil => rfl
  | cons load loads ih =>
    rw [List.countP_cons, List.countP_cons, List.filterMap_cons, ih]
    cases load with
    | catalog answer => rfl
    | document entry answer =>
      cases hmapping : (Load.document entry answer).mapping? with
      | none => simp [Load.isDocument]; omega
      | some found => simp [Load.isDocument]; omega

/-- What a session has loaded. -/
structure Kept where
  catalog? : Option Catalog
  mappings : KeyedList Mapping

def State.kept (state : State) : Kept := ⟨state.catalog?, state.mappings⟩

namespace Kept

/-- A load is made: of the catalog, if it is not there, and of a schema of the catalog, if its
mapping is not there. -/
def Due (kept : Kept) : Load → Prop
  | .catalog _ => kept.catalog? = none
  | .document entry _ => kept.mappings.get? entry.name = none ∧
      ∃ catalog, kept.catalog? = some catalog ∧ catalog.find? entry.name = some entry

/-- What is kept after a load. One that failed leaves all as it was. -/
def keep (kept : Kept) (load : Load) : Kept where
  catalog? := load.catalog?.or kept.catalog?
  mappings :=
    match load.mapping? with
    | some (name, mapping) => kept.mappings.insert name mapping
    | none => kept.mappings

/-- Every mapping is that of a schema of the catalog. -/
def Listed (kept : Kept) : Prop :=
  ∀ name mapping, kept.mappings.get? name = some mapping →
    ∃ catalog entry, kept.catalog? = some catalog ∧ catalog.find? name = some entry

theorem listed_empty : Listed ⟨none, ∅⟩ := by
  rintro name mapping ⟨⟩

variable {kept : Kept} {load : Load}

/-- What a load gives: nothing if it failed, else the catalog, or the mapping of a schema. -/
theorem keep_cases (hdue : kept.Due load) :
    (load.catalog? = none ∧ load.mapping? = none ∧ kept.keep load = kept) ∨
      (∃ catalog, load.catalog? = some catalog ∧ load.mapping? = none ∧ kept.catalog? = none ∧
        kept.keep load = ⟨some catalog, kept.mappings⟩) ∨
      ∃ catalog entry mapping, load.catalog? = none ∧ load.mapping? = some (entry.name, mapping) ∧
        kept.mappings.get? entry.name = none ∧ kept.catalog? = some catalog ∧
        catalog.find? entry.name = some entry ∧
        kept.keep load = ⟨some catalog, kept.mappings.insert entry.name mapping⟩ := by
  cases load with
  | catalog answer =>
    cases answer with
    | error reason => exact .inl ⟨rfl, rfl, rfl⟩
    | ok catalog => exact .inr (.inl ⟨catalog, rfl, rfl, hdue, rfl⟩)
  | document entry answer =>
    obtain ⟨hmissing, catalog, hcatalog, hentry⟩ := hdue
    cases hmapping : (Load.document entry answer).mapping? with
    | none =>
      refine .inl ⟨rfl, rfl, ?_⟩
      rw [keep, hmapping]
      rfl
    | some found =>
      obtain ⟨mapping, rfl⟩ : ∃ mapping, found = (entry.name, mapping) := by
        cases answer with
        | error reason => cases hmapping
        | ok document =>
          obtain ⟨mapping, -, rfl⟩ := Option.map_eq_some_iff.1 hmapping
          exact ⟨mapping, rfl⟩
      refine .inr (.inr ⟨catalog, entry, mapping, rfl, rfl, hmissing, hcatalog, hentry, ?_⟩)
      rw [keep, hmapping, hcatalog]
      rfl

theorem toList_catalog?_keep (hdue : kept.Due load) :
    (kept.keep load).catalog?.toList = kept.catalog?.toList ++ load.catalog?.toList := by
  obtain ⟨hnone, -, hkeep⟩ | ⟨catalog, hsome, -, hmissing, hkeep⟩ |
    ⟨catalog, entry, mapping, hnone, -, -, hcatalog, -, hkeep⟩ := keep_cases hdue
  · simp [hkeep, hnone]
  · simp [hkeep, hsome, hmissing]
  · simp [hkeep, hnone, hcatalog]

theorem entries_mappings_keep (hdue : kept.Due load) :
    (kept.keep load).mappings.entries = kept.mappings.entries ++ load.mapping?.toList := by
  obtain ⟨-, hnone, hkeep⟩ | ⟨catalog, -, hnone, -, hkeep⟩ |
    ⟨catalog, entry, mapping, -, hsome, hmissing, -, -, hkeep⟩ := keep_cases hdue
  · simp [hkeep, hnone]
  · simp [hkeep, hnone]
  · rw [hkeep, hsome, Option.toList_some]
    exact KeyedList.entries_insert_of_not_mem mapping (KeyedList.get?_eq_none_iff.1 hmissing)

theorem Listed.keep (h : kept.Listed) (hdue : kept.Due load) : (kept.keep load).Listed := by
  obtain ⟨-, -, hkeep⟩ | ⟨catalog, -, -, hmissing, hkeep⟩ |
    ⟨catalog, entry, mapping, -, -, -, hcatalog, hentry, hkeep⟩ := keep_cases hdue
  · rwa [hkeep]
  · -- there is no mapping yet, for there is no catalog
    rw [hkeep]
    intro name mapping hmapping
    obtain ⟨other, -, hother, -⟩ := h name mapping hmapping
    rw [hmissing] at hother
    cases hother
  · rw [hkeep]
    intro name found hfound
    rw [KeyedList.get?_insert] at hfound
    split at hfound
    · next hname => exact ⟨catalog, entry, rfl, hname ▸ hentry⟩
    · obtain ⟨other, listed, hother, hlisted⟩ := h name found hfound
      rw [hcatalog] at hother
      obtain rfl := Option.some.inj hother
      exact ⟨catalog, listed, rfl, hlisted⟩

end Kept

/-- Loads that are made one after another, each when it is due, and what is kept in the end. -/
inductive Keeps : Kept → List Load → Kept → Prop
  | nil (kept : Kept) : Keeps kept [] kept
  | cons {kept kept' : Kept} {load : Load} {loads : List Load} (hdue : kept.Due load)
      (hrest : Keeps (kept.keep load) loads kept') : Keeps kept (load :: loads) kept'

namespace Keeps

variable {kept kept' kept'' : Kept} {loads loads' : List Load} {load : Load} {catalog : Catalog}
  {name : String} {mapping : Mapping}

theorem single (hdue : kept.Due load) : Keeps kept [load] (kept.keep load) :=
  .cons hdue (.nil _)

theorem append (h : Keeps kept loads kept') (h' : Keeps kept' loads' kept'') :
    Keeps kept (loads ++ loads') kept'' := by
  induction h with
  | nil => exact h'
  | cons hdue _ ih => exact .cons hdue (ih h')

/-- The catalog that is kept is the one that was loaded. -/
theorem toList_catalog? (h : Keeps kept loads kept') :
    kept'.catalog?.toList = kept.catalog?.toList ++ loads.filterMap Load.catalog? := by
  induction h with
  | nil kept => simp
  | @cons kept kept' load loads hdue _ ih =>
    rw [ih, Kept.toList_catalog?_keep hdue, List.append_assoc]
    cases hload : load.catalog? with
    | none => simp [hload]
    | some catalog => simp [hload]

/-- The mappings that are kept are those that were loaded, in the order of their loads. -/
theorem entries_mappings (h : Keeps kept loads kept') :
    kept'.mappings.entries = kept.mappings.entries ++ loads.filterMap Load.mapping? := by
  induction h with
  | nil kept => simp
  | @cons kept kept' load loads hdue _ ih =>
    rw [ih, Kept.entries_mappings_keep hdue, List.append_assoc]
    cases hload : load.mapping? with
    | none => simp [hload]
    | some found => simp [hload]

theorem listed (h : Keeps kept loads kept') (hlisted : kept.Listed) : kept'.Listed := by
  induction h with
  | nil => exact hlisted
  | cons hdue _ ih => exact ih (hlisted.keep hdue)

/-- A catalog that is there stays. -/
theorem catalog?_eq (h : Keeps kept loads kept') (hcatalog : kept.catalog? = some catalog) :
    kept'.catalog? = some catalog := by
  have hlist := h.toList_catalog?
  rw [hcatalog, Option.toList_some, List.singleton_append] at hlist
  cases hkept : kept'.catalog? with
  | none => simp [hkept] at hlist
  | some other =>
    rw [hkept, Option.toList_some] at hlist
    rw [(List.cons.inj hlist).1]

/-- A mapping that is there stays. -/
theorem get?_mappings (h : Keeps kept loads kept')
    (hmapping : kept.mappings.get? name = some mapping) :
    kept'.mappings.get? name = some mapping := by
  rw [KeyedList.get?_eq_some_iff] at hmapping ⊢
  rw [h.entries_mappings]
  exact List.mem_append_left _ hmapping

/-- A catalog that is there is not loaded again. -/
theorem isCatalog_eq_false (h : Keeps kept loads kept') (hcatalog : kept.catalog? = some catalog) :
    ∀ load ∈ loads, load.isCatalog = false := by
  induction h with
  | nil => simp
  | @cons kept kept' load loads hdue hrest ih =>
    have hkept : (kept.keep load).catalog? = some catalog :=
      (single hdue).catalog?_eq hcatalog
    rw [List.forall_mem_cons]
    refine ⟨?_, ih hkept⟩
    cases load with
    | catalog answer =>
      have hnone : kept.catalog? = none := hdue
      rw [hcatalog] at hnone
      cases hnone
    | document entry answer => rfl

/-- No document is loaded for a schema the mapping of which is there. -/
theorem ne_of_mem (h : Keeps kept loads kept') (hmapping : kept.mappings.get? name = some mapping)
    {entry : Catalog.Entry} {answer : Except String Mapping.Document}
    (hmem : .document entry answer ∈ loads) : entry.name ≠ name := by
  induction h with
  | nil => cases hmem
  | @cons kept kept' load loads hdue hrest ih =>
    have hkept := (single hdue).get?_mappings hmapping
    rcases List.mem_cons.1 hmem with rfl | hmem
    · rintro rfl
      have hnone : kept.mappings.get? entry.name = none := hdue.1
      rw [hmapping] at hnone
      cases hnone
    · exact ih hkept hmem

/-! #### From the start -/

theorem filterMap_catalog? (h : Keeps ⟨none, ∅⟩ loads kept) :
    loads.filterMap Load.catalog? = kept.catalog?.toList :=
  h.toList_catalog?.symm

theorem filterMap_mapping? (h : Keeps ⟨none, ∅⟩ loads kept) :
    loads.filterMap Load.mapping? = kept.mappings.entries :=
  h.entries_mappings.symm

theorem catalog?_of_mem (h : Keeps ⟨none, ∅⟩ loads kept)
    (hmem : catalog ∈ loads.filterMap Load.catalog?) : kept.catalog? = some catalog := by
  rwa [h.filterMap_catalog?, Option.mem_toList] at hmem

theorem get?_of_mem (h : Keeps ⟨none, ∅⟩ loads kept)
    (hmem : (name, mapping) ∈ loads.filterMap Load.mapping?) :
    kept.mappings.get? name = some mapping := by
  rwa [h.filterMap_mapping?, ← KeyedList.get?_eq_some_iff] at hmem

end Keeps

/-! ### The loads of a session -/

namespace Service

variable {service : Service (StateM σ)} {s ready : Situation σ} {entry : Catalog.Entry}
  {request : Request}

theorem keeps_catalog (service : Service (StateM σ)) (s : Situation σ) :
    Keeps s.state.kept (service.catalogLoads s) (service.catalog.on s).2.state.kept := by
  rw [catalogLoads]
  cases hcatalog : s.state.catalog? with
  | some catalog =>
    rw [catalog_on_of_some hcatalog]
    exact .nil _
  | none =>
    have hdue : ∀ answer, s.state.kept.Due (.catalog answer) := fun _ => hcatalog
    rcases hload : service.source.loadCatalog s.world with ⟨reason | catalog, world⟩
    · rw [catalog_on_of_error hcatalog hload]
      exact .single (hdue _)
    · have hkept : (Situation.opening ⟨s.state, world⟩ service catalog).state.kept =
          s.state.kept.keep (.catalog (.ok catalog)) := by
        rw [State.kept, Situation.opening_catalog?, Situation.opening_mappings]
        rfl
      rw [catalog_on_of_ok hcatalog hload, hkept]
      exact .single (hdue _)

theorem keeps_load (service : Service (StateM σ)) {catalog : Catalog}
    (hcatalog : s.state.catalog? = some catalog)
    (hentry : catalog.find? entry.name = some entry) :
    Keeps s.state.kept (service.documentLoads entry s)
      ((service.load entry).on s).2.state.kept := by
  rw [documentLoads]
  cases hmapping : s.state.mappings.get? entry.name with
  | some mapping =>
    rw [load_on_of_some hmapping]
    exact .nil _
  | none =>
    have hdue : ∀ answer, s.state.kept.Due (.document entry answer) :=
      fun _ => ⟨hmapping, catalog, hcatalog, hentry⟩
    rcases hload : service.source.loadDocument entry s.world with ⟨reason | document, world⟩
    · rw [load_on_of_error hmapping hload]
      exact .single (hdue _)
    · have hsingle := Keeps.single (hdue (.ok document))
      cases hvalid : Mapping.ofDocument document with
      | error use =>
        have hkeep : s.state.kept.keep (.document entry (.ok document)) = s.state.kept := by
          simp [Kept.keep, Load.mapping?, Load.catalog?, hvalid, Except.toOption]
        rw [load_on_of_invalid hmapping hload hvalid]
        rwa [hkeep] at hsingle
      | ok mapping =>
        have hkeep : s.state.kept.keep (.document entry (.ok document)) =
            (s.keeping entry.name mapping).state.kept := by
          simp [Kept.keep, Load.mapping?, Load.catalog?, hvalid, Except.toOption, State.kept,
            Situation.keeping]
        rw [load_on_of_ok hmapping hload hvalid]
        rwa [hkeep] at hsingle

theorem keeps_obtain (h : request.schema? ready.state = some entry) :
    Keeps ready.state.kept (service.obtainLoads entry ready request)
      ((service.obtain entry request).on ready).2.state.kept := by
  obtain ⟨-, -, catalog, hcatalog, hentry, -⟩ := Request.schema?_eq_some h
  cases request with
  | catalog =>
    rw [Request.schema?_catalog] at h
    cases h
  | select name =>
    rw [obtain_on_select]
    exact keeps_load service (s := ready.selecting service entry) hcatalog hentry
  | use schema task =>
    have hload := keeps_load service hcatalog hentry
    rw [obtain_on_use]
    rcases hon : (service.load entry).on ready with ⟨problem | mapping, s'⟩
    · rwa [hon] at hload
    · rwa [hon] at hload

/-- The loads of a request are due. -/
theorem keeps_answer (service : Service (StateM σ)) (request : Request) (s : Situation σ) :
    Keeps s.state.kept (service.neededLoads request s)
      ((service.answer request).on s).2.state.kept := by
  by_cases hidle : request.isIdle = true
  · obtain ⟨response, hanswer⟩ := answer_on_of_isIdle hidle
    rw [neededLoads, if_pos hidle, hanswer]
    exact .nil _
  · rw [neededLoads, if_neg hidle]
    rw [Bool.not_eq_true] at hidle
    refine (keeps_catalog service s).append ?_
    cases hentry : request.schema? (service.catalog.on s).2.state with
    | some entry =>
      rw [answer_on_of_some hentry]
      exact keeps_obtain hentry
    | none =>
      rw [answer_on_of_none hidle hentry]
      exact .nil _

theorem keeps_take (service : Service (StateM σ)) (s : Situation σ) (step : Step σ) :
    Keeps s.state.kept (service.stepLoads s step) (service.take s step).state.kept := by
  cases step with
  | ask request =>
    rw [stepLoads_ask]
    exact keeps_answer service request s
  | change change => exact .nil _

/-- The loads of any steps are due, and what is kept of them is all that a session has. -/
theorem keeps_run (service : Service (StateM σ)) (steps : List (Step σ)) (s : Situation σ) :
    Keeps s.state.kept (service.loads steps s) (service.run steps s).state.kept := by
  induction steps generalizing s with
  | nil => exact .nil _
  | cons step steps ih => exact (keeps_take service s step).append (ih (service.take s step))

/-! ### Loading once -/

/-- A session that starts has nothing, so that what its loads give is all it has. -/
theorem keeps_start (service : Service (StateM σ)) (steps : List (Step σ)) (world : σ) :
    Keeps ⟨none, ∅⟩ (service.loads steps (.start world))
      (service.run steps (.start world)).state.kept :=
  keeps_run service steps (.start world)

/-- A mapping that is there answers all that is asked about its schema. -/
theorem answer_on_of_get? {name : String} {mapping : Mapping} (hlisted : s.state.kept.Listed)
    (hname : request.schemaName? s.state = some name)
    (hmapping : s.state.mappings.get? name = some mapping) :
    ((service.answer request).on s).1 = .ok (request.response mapping) := by
  obtain ⟨catalog, entry, hkept, hentry⟩ := hlisted name mapping hmapping
  have hcatalog : s.state.catalog? = some catalog := hkept
  obtain ⟨-, rfl⟩ := Catalog.mem_of_find? hentry
  have hready : (service.catalog.on s).2 = s := by rw [catalog_on_of_some hcatalog]
  have habout : request.schema? (service.catalog.on s).2.state = some entry := by
    rw [hready, Request.schema?, hcatalog, hname]
    exact hentry
  rw [answer_on_of_some habout, hready]
  cases request with
  | catalog => cases hname
  | select name =>
    have hselected : (s.selecting service entry).state.mappings.get? entry.name = some mapping :=
      hmapping
    rw [obtain_on_select, load_on_of_some hselected]
    rfl
  | use schema task =>
    rw [obtain_on_use, load_on_of_some hmapping]
    rfl

/-- The load of a catalog that is not there. -/
theorem catalogLoads_eq (service : Service (StateM σ)) (s : Situation σ) :
    service.catalogLoads s =
      if s.state.catalog? = none then [.catalog (service.source.loadCatalog s.world).1]
      else [] := by
  rw [catalogLoads]
  cases s.state.catalog? with
  | none => rfl
  | some catalog => rfl

theorem mappings_catalog_on (service : Service (StateM σ)) (s : Situation σ) :
    (service.catalog.on s).2.state.mappings = s.state.mappings := by
  have hentries := (keeps_catalog service s).entries_mappings
  have hnone : (service.catalogLoads s).filterMap Load.mapping? = [] := by
    rw [catalogLoads_eq]
    split
    · rfl
    · rfl
  rw [hnone, List.append_nil] at hentries
  exact KeyedList.ext hentries

/-- The load of a document the mapping of which is not there. -/
theorem exists_obtainLoads_eq (service : Service (StateM σ)) (entry : Catalog.Entry)
    (ready : Situation σ) (request : Request) :
    ∃ answer, service.obtainLoads entry ready request =
      if ready.state.mappings.get? entry.name = none then [.document entry answer] else [] := by
  have hload : ∀ s : Situation σ, s.state.mappings = ready.state.mappings →
      ∃ answer, service.documentLoads entry s =
        if ready.state.mappings.get? entry.name = none then [.document entry answer] else [] := by
    intro s hs
    rw [documentLoads, hs]
    cases ready.state.mappings.get? entry.name with
    | none => exact ⟨_, rfl⟩
    | some mapping => exact ⟨.error "", rfl⟩
  cases request with
  | catalog => exact hload ready rfl
  | select name => exact hload (ready.selecting service entry) rfl
  | use schema task => exact hload ready rfl

/-- The loads of a request: at most one of the catalog, and at most one of a document. -/
theorem exists_neededLoads_eq (service : Service (StateM σ)) (request : Request)
    (s : Situation σ) :
    ∃ catalogAnswer documentAnswer, service.neededLoads request s =
      (if request.isIdle = false ∧ s.state.catalog? = none then [.catalog catalogAnswer] else []) ++
        match request.schema? (service.catalog.on s).2.state with
        | some entry =>
          if s.state.mappings.get? entry.name = none then [.document entry documentAnswer] else []
        | none => [] := by
  by_cases hidle : request.isIdle = true
  · refine ⟨.error "", .error "", ?_⟩
    rw [neededLoads, if_pos hidle]
    cases hentry : request.schema? (service.catalog.on s).2.state with
    | none => simp [hidle]
    | some entry =>
      rw [(Request.schema?_eq_some hentry).1] at hidle
      cases hidle
  · rw [neededLoads, if_neg hidle, catalogLoads_eq]
    rw [Bool.not_eq_true] at hidle
    refine ⟨(service.source.loadCatalog s.world).1, ?_⟩
    cases hentry : request.schema? (service.catalog.on s).2.state with
    | none => exact ⟨.error "", by simp [hidle, hentry]⟩
    | some entry =>
      obtain ⟨answer, hloads⟩ :=
        exists_obtainLoads_eq service entry (service.catalog.on s).2 request
      rw [mappings_catalog_on] at hloads
      exact ⟨answer, by simp [hidle, hentry, hloads]⟩

theorem exists_catalog_mem_neededLoads :
    (∃ answer, .catalog answer ∈ service.neededLoads request s) ↔
      request.isIdle = false ∧ s.state.catalog? = none := by
  obtain ⟨catalogAnswer, documentAnswer, hloads⟩ := exists_neededLoads_eq service request s
  have hdocuments : ∀ about : Option Catalog.Entry, ∀ answer,
      .catalog answer ∉ (match about with
        | some entry =>
          if s.state.mappings.get? entry.name = none then [.document entry documentAnswer] else []
        | none => [] : List Load) := by
    intro about answer
    cases about with
    | none => simp
    | some entry => split <;> simp
  rw [hloads]
  simp only [List.mem_append, hdocuments, or_false]
  split
  · next h => simpa using h
  · next h => simpa using h

theorem exists_document_mem_neededLoads :
    (∃ answer, .document entry answer ∈ service.neededLoads request s) ↔
      request.schema? (service.catalog.on s).2.state = some entry ∧
        s.state.mappings.get? entry.name = none := by
  obtain ⟨catalogAnswer, documentAnswer, hloads⟩ := exists_neededLoads_eq service request s
  have hcatalog : ∀ answer, .document entry answer ∉
      (if request.isIdle = false ∧ s.state.catalog? = none then [.catalog catalogAnswer] else [] :
        List Load) := by
    intro answer
    split <;> simp
  rw [hloads]
  simp only [List.mem_append, hcatalog, false_or]
  cases request.schema? (service.catalog.on s).2.state with
  | none => simp
  | some other =>
    constructor
    · rintro ⟨answer, hmem⟩
      dsimp only at hmem
      split at hmem
      · next hmissing =>
        cases List.mem_singleton.1 hmem
        exact ⟨rfl, hmissing⟩
      · cases hmem
    · rintro ⟨hentry, hmissing⟩
      cases hentry
      exact ⟨documentAnswer, by simp [hmissing]⟩

theorem countP_neededLoads_le (service : Service (StateM σ)) (request : Request)
    (s : Situation σ) :
    (service.neededLoads request s).countP Load.isCatalog ≤ 1 ∧
      (service.neededLoads request s).countP Load.isDocument ≤ 1 := by
  obtain ⟨catalogAnswer, documentAnswer, hloads⟩ := exists_neededLoads_eq service request s
  rw [hloads, List.countP_append, List.countP_append]
  cases request.schema? (service.catalog.on s).2.state with
  | none => split <;> simp [Load.isCatalog, Load.isDocument]
  | some entry =>
    dsimp only
    split <;> split <;> simp [Load.isCatalog, Load.isDocument]

/-- Each thing is loaded successfully at most once. Whatever was asked `earlier` and `later`, and
however the world changed on the way, when another request comes: a catalog that was loaded is there
unchanged, and was not loaded again; a mapping that was loaded answers all that is asked about its
schema, and no document was loaded again for that; what was not loaded yet, or could not be, is
loaded now if the request needs it; and every load of a document either gave one of the mappings
that are there or failed. -/
theorem load_once (service : Service (StateM σ)) (world : σ) (earlier later : List (Step σ))
    (request : Request) :
    let past := service.run earlier (.start world)
    let now := service.run later past
    let old := service.loads earlier (.start world)
    let since := service.loads later past
    let record := old ++ since
    let new := service.stepLoads now (.ask request)
    (∀ catalog ∈ old.filterMap Load.catalog?,
      now.state.catalog? = some catalog ∧
        ((service.answer .catalog).on now).1 = .ok (.catalog catalog) ∧
        ∀ load ∈ since ++ new, load.isCatalog = false) ∧
    (∀ name mapping, (name, mapping) ∈ old.filterMap Load.mapping? →
      (request.schemaName? now.state = some name →
        ((service.answer request).on now).1 = .ok (request.response mapping)) ∧
        ∀ entry answer, .document entry answer ∈ since ++ new → entry.name ≠ name) ∧
    ((∃ answer, .catalog answer ∈ new) ↔
      request.isIdle = false ∧ record.filterMap Load.catalog? = []) ∧
    (∀ entry, (∃ answer, .document entry answer ∈ new) ↔
      request.schema? (service.catalog.on now).2.state = some entry ∧
        ∀ mapping, (entry.name, mapping) ∉ record.filterMap Load.mapping?) ∧
    (new.countP Load.isCatalog ≤ 1 ∧ new.countP Load.isDocument ≤ 1) ∧
    record.countP Load.isDocument =
      now.state.mappings.size +
        record.countP (fun load => load.isDocument && load.mapping?.isNone) := by
  intro past now old since record new
  have hold : Keeps ⟨none, ∅⟩ old past.state.kept := keeps_start service earlier world
  have hsince : Keeps past.state.kept since now.state.kept := keeps_run service later past
  have hrecord : Keeps ⟨none, ∅⟩ record now.state.kept := hold.append hsince
  have hnew : Keeps past.state.kept (since ++ new) (service.take now (.ask request)).state.kept :=
    hsince.append (keeps_take service now (.ask request))
  have hneeded : new = service.neededLoads request now := stepLoads_ask
  refine ⟨?stays, ?answers, ?catalog, ?document, ?once, ?balance⟩
  case stays =>
    intro catalog hloaded
    have hpast : past.state.kept.catalog? = some catalog := hold.catalog?_of_mem hloaded
    have hnow : now.state.catalog? = some catalog := hsince.catalog?_eq hpast
    refine ⟨hnow, ?_, hnew.isCatalog_eq_false hpast⟩
    rw [answer_on_catalog, catalog_on_of_some hnow]
    rfl
  case answers =>
    intro name mapping hloaded
    have hpast : past.state.kept.mappings.get? name = some mapping := hold.get?_of_mem hloaded
    refine ⟨fun hname => ?_, fun entry answer hmem => hnew.ne_of_mem hpast hmem⟩
    exact answer_on_of_get? (hrecord.listed Kept.listed_empty) hname (hsince.get?_mappings hpast)
  case catalog =>
    rw [hneeded, exists_catalog_mem_neededLoads, hrecord.filterMap_catalog?,
      Option.toList_eq_nil_iff]
    rfl
  case document =>
    intro entry
    have hmissing : now.state.mappings.get? entry.name = none ↔
        ∀ mapping, (entry.name, mapping) ∉ now.state.mappings.entries := by
      simp only [Option.eq_none_iff_forall_ne_some, ne_eq, KeyedList.get?_eq_some_iff]
    rw [hneeded, exists_document_mem_neededLoads, hrecord.filterMap_mapping?, hmissing]
    rfl
  case once =>
    rw [hneeded]
    exact countP_neededLoads_le service request now
  case balance =>
    rw [Load.countP_isDocument, hrecord.filterMap_mapping?]
    rfl

end Service

end Codename.Session
