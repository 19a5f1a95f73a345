import Codename.Proofs.Session.Selection

/-!
# The mapping of the selected schema

A task that names no schema is meant for the selected one. A session looks this one up by its name
though, and the first entry of a catalog with a name can be another than the one that is marked as
the default. So the mapping that is used is always the one of the first entry that is called like
the selected one, and this is the selected one itself in all sessions if and only if the default of
the catalog is the first of its name.

## Main definitions

* `LoadedFor` — a mapping comes from the document of an entry.
* `State.Chosen` — what the selected schema can be.
* `Service.blank` — a service with empty documents.

## Main statements

* `Keeps.loadedFor` — where a mapping comes from.
* `Service.exists_first_of_open` — the mapping that is used where no schema is named.
* `Service.open_uses_selected_iff` — when it is that of the selected schema.
* `Service.not_open_uses_selected_twofold` — that it is not always that.
-/

namespace Codename.Session

variable {σ : Type}

/-! ### Where a mapping comes from -/

/-- One of the loads gave the document of the entry, and the mapping is what it says. -/
def LoadedFor (loads : List Load) (entry : Catalog.Entry) (mapping : Mapping) : Prop :=
  ∃ document, .document entry (.ok document) ∈ loads ∧ Mapping.ofDocument document = .ok mapping

theorem Load.exists_document_of_mapping? {load : Load} {name : String} {mapping : Mapping}
    (h : load.mapping? = some (name, mapping)) :
    ∃ entry document, load = .document entry (.ok document) ∧ entry.name = name ∧
      Mapping.ofDocument document = .ok mapping := by
  cases load with
  | catalog answer => cases h
  | document entry answer =>
    cases answer with
    | error reason => cases h
    | ok document =>
      obtain ⟨found, hfound, heq⟩ := Option.map_eq_some_iff.1 h
      cases heq
      refine ⟨entry, document, rfl, rfl, ?_⟩
      cases hvalid : Mapping.ofDocument document with
      | error use =>
        rw [hvalid] at hfound
        cases hfound
      | ok valid =>
        rw [hvalid] at hfound
        cases hfound
        rfl

namespace Keeps

variable {kept kept' : Kept} {loads : List Load} {catalog : Catalog} {entry : Catalog.Entry}
  {mapping : Mapping}

/-- A document is loaded only for the first entry of its name. -/
theorem find?_of_mem (h : Keeps kept loads kept') {answer : Except String Mapping.Document}
    (hmem : .document entry answer ∈ loads) :
    ∃ catalog, kept'.catalog? = some catalog ∧ catalog.find? entry.name = some entry := by
  induction h with
  | nil => cases hmem
  | @cons kept kept' load loads hdue hrest ih =>
    rcases List.mem_cons.1 hmem with rfl | hmem
    · have hnext := single hdue
      obtain ⟨-, catalog, hcatalog, hentry⟩ := hdue
      exact ⟨catalog, hrest.catalog?_eq (hnext.catalog?_eq hcatalog), hentry⟩
    · exact ih hmem

/-- A mapping that is there comes from the document of the first entry of its name. -/
theorem loadedFor (h : Keeps ⟨none, ∅⟩ loads kept) (hcatalog : kept.catalog? = some catalog)
    (hentry : catalog.find? entry.name = some entry)
    (hmapping : kept.mappings.get? entry.name = some mapping) : LoadedFor loads entry mapping := by
  have hloaded : (entry.name, mapping) ∈ loads.filterMap Load.mapping? := by
    rw [h.filterMap_mapping?]
    exact KeyedList.get?_eq_some_iff.1 hmapping
  obtain ⟨load, hmem, hload⟩ := List.mem_filterMap.1 hloaded
  obtain ⟨other, document, rfl, hname, hvalid⟩ := Load.exists_document_of_mapping? hload
  obtain ⟨listed, hlisted, hother⟩ := h.find?_of_mem hmem
  obtain rfl : listed = catalog := Option.some.inj (hlisted.symm.trans hcatalog)
  obtain rfl : other = entry := by
    rw [hname, hentry] at hother
    exact (Option.some.inj hother).symm
  exact ⟨document, hmem, hvalid⟩

end Keeps

/-! ### What the selected schema can be -/

/-- The selected schema is the first of its name in the catalog, or else the default. -/
def State.Chosen (state : State) : Prop :=
  ∀ entry, state.selected? = some entry →
    ∃ catalog, state.catalog? = some catalog ∧
      (catalog.find? entry.name = some entry ∨ catalog.default? = some entry)

namespace Service

variable {service : Service (StateM σ)} {s : Situation σ} {catalog : Catalog}
  {entry : Catalog.Entry} {task : Task} {response : Response}

theorem invariant_chosen (service : Service (StateM σ)) :
    service.Invariant fun s => s.state.Chosen where
  asking _ h := h
  fetching _ _ h := h
  keeping _ _ _ h := h
  selecting s catalog entry _ hcatalog hentry := by
    rintro selected ⟨⟩
    exact ⟨catalog, hcatalog, .inl hentry⟩
  opening s catalog h hnone := by
    cases hinitial : catalog.initial? (rememberedName (service.selections.load s.world).1) with
    | none =>
      -- none was selected before, for there was no catalog
      rw [Situation.opening_of_initial?_eq_none hinitial]
      intro selected hselected
      obtain ⟨other, hother, -⟩ := h selected hselected
      rw [hnone] at hother
      cases hother
    | some entry =>
      rw [Situation.opening_of_initial?_eq_some hinitial]
      rintro selected ⟨⟩
      exact ⟨catalog, rfl, Catalog.find?_or_default?_of_initial? hinitial⟩

theorem chosen_run (service : Service (StateM σ)) (steps : List (Step σ)) (world : σ) :
    (service.run steps (.start world)).state.Chosen :=
  (invariant_chosen service).run (fun _ _ _ h => h) nofun

/-! ### Tasks that name no schema -/

theorem run_concat (service : Service (StateM σ)) (steps : List (Step σ)) (step : Step σ)
    (s : Situation σ) : service.run (steps ++ [step]) s = service.take (service.run steps s) step :=
  List.foldl_concat ..

/-- A task that names no schema is done with the mapping from the first entry that is called like
the selected one, and this entry is selected then. -/
theorem exists_first_of_open (service : Service (StateM σ)) (world : σ) (steps : List (Step σ))
    (hcatalog : (service.run steps (.start world)).state.catalog? = some catalog)
    (hselected : (service.run steps (.start world)).state.selected? = some entry)
    (htask : task.isIdle = false)
    (hanswer : ((service.answer (.use none task)).on (service.run steps (.start world))).1 =
      .ok response) :
    ∃ first mapping, catalog.find? entry.name = some first ∧
      (service.run (steps ++ [.ask (.use none task)]) (.start world)).state.selected? =
        some first ∧
      response = task.response mapping ∧
      LoadedFor (service.loads (steps ++ [.ask (.use none task)]) (.start world)) first
        mapping := by
  have hneeds : Request.use none task ≠ .catalog := nofun
  obtain ⟨first, mapping, habout, hresponse, hsame, hmapping, hafter⟩ :=
    answer_on_ok hneeds htask hanswer
  rw [catalog_on_of_some hcatalog] at habout hsame
  have hfirst : catalog.find? entry.name = some first := by
    simpa [Request.schema?, Request.schemaName?, hcatalog, hselected, htask] using habout
  have hkeeps := keeps_start service (steps ++ [.ask (.use none task)]) world
  rw [run_concat] at hkeeps ⊢
  obtain ⟨-, hname⟩ := Catalog.mem_of_find? hfirst
  refine ⟨first, mapping, hfirst, hafter, hresponse, ?_⟩
  exact hkeeps.loadedFor (hsame.trans hcatalog) (hname.symm ▸ hfirst) hmapping

/-- A service of a catalog whose documents are all empty. -/
def blank (catalog : Catalog) : Service (StateM Unit) where
  source :=
    { loadCatalog := pure (.ok catalog)
      loadDocument := fun _ => pure (.ok default) }
  selections := .forgetful

theorem run_blank (hdefault : catalog.default? = some entry) :
    (blank catalog).run [.ask .catalog] (.start ()) =
      ⟨{ catalog? := some catalog, selected? := some entry }, ()⟩ := by
  have hinitial : catalog.initial? none = some entry := hdefault
  show (((blank catalog).answer .catalog).on (.start ())).2 = _
  rw [answer_on_catalog, catalog_on_of_ok rfl rfl]
  exact Situation.opening_of_initial?_eq_some hinitial

theorem answer_blank (hdefault : catalog.default? = some entry) :
    ∃ response, (((blank catalog).answer (.use none .mapping)).on
      ((blank catalog).run [.ask .catalog] (.start ()))).1 = .ok response := by
  let ready : Situation Unit := ⟨{ catalog? := some catalog, selected? := some entry }, ()⟩
  obtain ⟨first, hfirst⟩ := Catalog.exists_find?_eq_some (Catalog.mem_of_default? hdefault)
  have hready : (blank catalog).catalog.on ready = (.ok catalog, ready) := catalog_on_of_some rfl
  have habout : (Request.use none .mapping).schema? ready.state = some first := hfirst
  rw [run_blank hdefault, answer_on_of_some (by rw [hready]; exact habout), hready, obtain_on_use,
    load_on_of_ok rfl rfl rfl]
  exact ⟨_, rfl⟩

/-- The tasks that name no schema are done with the mapping from the selected entry, which stays
selected, in all sessions with a catalog, if and only if the default of the catalog is the first
entry of its name. -/
theorem open_uses_selected_iff (catalog : Catalog) :
    (∀ {σ : Type} (service : Service (StateM σ)) (world : σ) (steps : List (Step σ)) (task : Task)
        (entry : Catalog.Entry) (response : Response),
      let s := service.run steps (.start world)
      let asked := steps ++ [.ask (.use none task)]
      s.state.catalog? = some catalog → s.state.selected? = some entry → task.isIdle = false →
        ((service.answer (.use none task)).on s).1 = .ok response →
          (service.run asked (.start world)).state.selected? = some entry ∧
            ∃ mapping, response = task.response mapping ∧
              LoadedFor (service.loads asked (.start world)) entry mapping) ↔
      ∀ entry, catalog.default? = some entry → catalog.find? entry.name = some entry := by
  constructor
  · -- the default is selected when the catalog is loaded, and the documents do not matter
    intro hall entry hdefault
    have hrun := run_blank hdefault
    have hcatalog : ((blank catalog).run [.ask .catalog] (.start ())).state.catalog? =
        some catalog := by rw [hrun]
    have hselected : ((blank catalog).run [.ask .catalog] (.start ())).state.selected? =
        some entry := by rw [hrun]
    obtain ⟨response, hanswer⟩ := answer_blank hdefault
    obtain ⟨hstays, -⟩ := hall (blank catalog) () [.ask .catalog] .mapping entry response hcatalog
      hselected rfl hanswer
    obtain ⟨first, mapping, hfirst, hafter, -⟩ :=
      exists_first_of_open (blank catalog) () [.ask .catalog] hcatalog hselected rfl hanswer
    obtain rfl : entry = first := Option.some.inj (hstays.symm.trans hafter)
    exact hfirst
  · intro hdefault σ service world steps task entry response s asked hcatalog hselected htask
      hanswer
    obtain ⟨first, mapping, hfirst, hafter, hresponse, hloaded⟩ :=
      exists_first_of_open service world steps hcatalog hselected htask hanswer
    have hentry : catalog.find? entry.name = some entry := by
      obtain ⟨other, hother, hchosen⟩ := chosen_run service steps world entry hselected
      obtain rfl : other = catalog := Option.some.inj (hother.symm.trans hcatalog)
      rcases hchosen with hfound | hmarked
      · exact hfound
      · exact hdefault entry hmarked
    obtain rfl : first = entry := Option.some.inj (hfirst.symm.trans hentry)
    exact ⟨hafter, mapping, hresponse, hloaded⟩

end Service

/-- A shelf with a catalog that lists a schema twice, and marks the second as the default. -/
def Shelf.twofold : Shelf where
  catalog? := some "[[\"crm\", \"old.json\"], [\"crm\", \"new.json\", true]]"
  documents := .ofList [
    ("old.json", "[\x7b\"Customers\": \"Cst\"\x7d]"),
    ("new.json", "[\x7b\"Customers\": \"Kst\"\x7d]")]
  remembered? := none

/-- The second schema is selected when the catalog is loaded, but the mapping is that of the first
one, which is selected then. -/
theorem Service.not_open_uses_selected_twofold :
    let s := Shelf.service.run [.ask .catalog] (.start Shelf.twofold)
    let after := Shelf.service.take s (.ask (.use none .mapping))
    s.state.selected? = some ⟨"crm", "new.json", true⟩ ∧
      Shelf.twofold.readDocument "new.json" = .ok ⟨.ofList [("Customers", "Kst")], ∅⟩ ∧
      ((Shelf.service.mapping none).on s).1.map (·.document) =
        .ok ⟨.ofList [("Customers", "Cst")], ∅⟩ ∧
      after.state.selected? = some ⟨"crm", "old.json", false⟩ := by
  dsimp only
  decide +kernel

end Codename.Session
