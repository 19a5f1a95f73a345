import Codename.Proofs.Session.Invariant
import Codename.Proofs.Session.Loads
import Codename.Session.Shelf
import Mathlib.Control.Monad.Basic

/-!
# The selection of a session

A session has a schema selected, and its store holds the entry of one. A call that fails leaves both
as the load of the catalog leaves them, except that selecting a schema by its name selects it before
its mapping is loaded. While the store can save, the two move together: they are untouched until a
catalog with schemas is there, and the same entry of this catalog ever after.

## Main definitions

* `Source.Spares` — a part of the world that the source leaves alone.
* `SelectionStore.Holds` — the part of the world that is the entry of the store.
* `Service.Closed` — worlds that a session does not leave.
* `Situation.selection` — the selected schema, and the entry that the store holds.
* `Situation.InStep` — the two move together.

## Main statements

* `Service.take_failed_use` — a task that fails.
* `Service.selection_failed_select_iff` — when a selection that fails leaves the selection alone.
* `Service.not_selection_failed_select_halfStocked` — that it does not always do so.
* `Service.invariant_inStep`, `Service.selection_run` — the selection in the course of any steps.
-/

namespace Codename.Session

variable {σ ρ : Type}

/-! ### The world of a session -/

/-- The source leaves a part of the world alone. -/
structure Source.Spares (source : Source (StateM σ)) (part : σ → ρ) : Prop where
  loadCatalog : ∀ world, part (source.loadCatalog world).2 = part world
  loadDocument : ∀ entry world, part (source.loadDocument entry world).2 = part world

/-- A part of the world is the entry that the store holds: it stays when it is loaded, and another
takes its place when it is saved, unless saving fails. -/
structure SelectionStore.Holds (selections : SelectionStore (StateM σ))
    (held : σ → Option Catalog.Entry) : Prop where
  load : ∀ world, held (selections.load world).2 = held world
  save : ∀ entry world, held (selections.save entry world).2 =
    match (selections.save entry world).1 with
    | .ok () => some entry
    | .error _ => held world

namespace SelectionStore.Holds

variable {selections : SelectionStore (StateM σ)} {held : σ → Option Catalog.Entry}
  {entry : Catalog.Entry} {world : σ}

theorem save_of_ok (h : selections.Holds held) (hsaved : (selections.save entry world).1 = .ok ()) :
    held (selections.save entry world).2 = some entry := by
  rw [h.save, hsaved]

/-- Saving an entry changes nothing if it fails, or if the entry was held already. -/
theorem save_eq_iff (h : selections.Holds held) :
    held (selections.save entry world).2 = held world ↔
      ((selections.save entry world).1 = .ok () → held world = some entry) := by
  rw [h.save]
  cases (selections.save entry world).1 with
  | ok _ => simp [eq_comm]
  | error reason => simp

end SelectionStore.Holds

/-- Neither the source nor the store leads out of the worlds with a property. -/
structure Service.Closed (service : Service (StateM σ)) (Ready : σ → Prop) : Prop where
  loadCatalog : ∀ world, Ready world → Ready (service.source.loadCatalog world).2
  loadDocument : ∀ entry world, Ready world → Ready (service.source.loadDocument entry world).2
  load : ∀ world, Ready world → Ready (service.selections.load world).2
  save : ∀ entry world, Ready world → Ready (service.selections.save entry world).2

namespace Shelf

theorem selections_save (entry : Catalog.Entry) (shelf : Shelf) :
    selections.save entry shelf =
      if shelf.failsToSave then (.error "unavailable", shelf)
      else (.ok (), { shelf with remembered? := some entry }) :=
  rfl

theorem source_spares_remembered? : source.Spares Shelf.remembered? where
  loadCatalog _ := rfl
  loadDocument _ _ := rfl

theorem selections_holds_remembered? : selections.Holds Shelf.remembered? where
  load _ := rfl
  save entry shelf := by
    rw [selections_save]
    split
    · rfl
    · rfl

theorem service_closed_failsToSave : service.Closed fun shelf => shelf.failsToSave = false where
  loadCatalog _ h := h
  loadDocument _ _ h := h
  load _ h := h
  save entry shelf h := by
    show (selections.save entry shelf).2.failsToSave = false
    rw [selections_save, h]
    rfl

theorem selections_save_of_failsToSave_eq_false (entry : Catalog.Entry) {shelf : Shelf}
    (h : shelf.failsToSave = false) : (selections.save entry shelf).1 = .ok () := by
  rw [selections_save, h]
  rfl

/-- A shelf with a catalog of two schemas and the document of one of them. -/
def halfStocked : Shelf where
  catalog? := some "[[\"crm\", \"crm.json\"], [\"gone\", \"gone.json\"]]"
  documents := .ofList [("crm.json", "[]")]
  remembered? := none

/-- The schema is asked for whose document is not there, and then the catalog is taken away. -/
def troubles : List (Step Shelf) :=
  [.ask .catalog, .ask (.select "gone"), .change fun shelf => { shelf with catalog? := none }]

end Shelf

/-! ### The selection -/

namespace Situation

/-- The selected schema, and the entry that the store holds. -/
def selection (held : σ → Option Catalog.Entry) (s : Situation σ) :
    Option Catalog.Entry × Option Catalog.Entry :=
  (s.state.selected?, held s.world)

/-- The selected schema and the entry that the store holds move together: they stay what they were
at the start while there is no catalog with schemas, and then they are the same entry of it. -/
inductive InStep (held : σ → Option Catalog.Entry) (start : Option Catalog.Entry)
    (s : Situation σ) : Prop
  | untouched (hcatalog : ∀ catalog, s.state.catalog? = some catalog → catalog.isEmpty = true)
      (hselection : s.selection held = (none, start))
  | following {catalog : Catalog} {entry : Catalog.Entry}
      (hcatalog : s.state.catalog? = some catalog) (hmem : entry ∈ catalog.entries)
      (hselection : s.selection held = (some entry, some entry))

variable {held : σ → Option Catalog.Entry} {start : Option Catalog.Entry} {s s' : Situation σ}
  {service : Service (StateM σ)} {entry : Catalog.Entry} {catalog : Catalog}

theorem InStep.congr (h : s.InStep held start) (hcatalog : s'.state.catalog? = s.state.catalog?)
    (hselection : s'.selection held = s.selection held) : s'.InStep held start := by
  cases h with
  | untouched hnone hstart =>
    exact .untouched (fun catalog h => hnone catalog (hcatalog ▸ h)) (hselection.trans hstart)
  | following hthere hmem hboth =>
    exact .following (hcatalog.trans hthere) hmem (hselection.trans hboth)

theorem InStep.eq_start (h : s.InStep held start)
    (hempty : ∀ catalog, s.state.catalog? = some catalog → catalog.isEmpty = true) :
    s.selection held = (none, start) := by
  cases h with
  | untouched _ hselection => exact hselection
  | @following catalog entry hcatalog hmem _ =>
    have hnone : catalog.entries = [] := List.isEmpty_iff.1 (hempty catalog hcatalog)
    rw [hnone] at hmem
    cases hmem

theorem InStep.exists_entry (h : s.InStep held start) (hcatalog : s.state.catalog? = some catalog)
    (hlists : catalog.isEmpty = false) :
    ∃ entry ∈ catalog.entries, s.selection held = (some entry, some entry) := by
  cases h with
  | untouched hempty _ =>
    rw [hempty catalog hcatalog] at hlists
    cases hlists
  | @following other entry hother hmem hselection =>
    obtain rfl : other = catalog := Option.some.inj (hother.symm.trans hcatalog)
    exact ⟨entry, hmem, hselection⟩

/-- A schema that is selected is the one that the store holds. -/
theorem InStep.selection_eq (h : s.InStep held start) (hselected : s.state.selected? = some entry) :
    s.selection held = (some entry, some entry) := by
  cases h with
  | untouched _ hselection =>
    have hnone : s.state.selected? = none := congrArg Prod.fst hselection
    rw [hselected] at hnone
    cases hnone
  | following _ _ hselection =>
    have hsome := congrArg Prod.fst hselection
    cases hselected.symm.trans hsome
    exact hselection

theorem selection_asking (hspares : service.source.Spares held) :
    (s.asking service).selection held = s.selection held :=
  congrArg (Prod.mk s.state.selected?) (hspares.loadCatalog s.world)

theorem selection_fetching (hspares : service.source.Spares held) :
    (s.fetching service entry).selection held = s.selection held :=
  congrArg (Prod.mk s.state.selected?) (hspares.loadDocument entry s.world)

/-- A schema that was selected and saved is selected and held. -/
theorem selection_selecting (hholds : service.selections.Holds held)
    (hsaved : (service.selections.save entry s.world).1 = .ok ()) :
    (s.selecting service entry).selection held = (some entry, some entry) := by
  exact congrArg (Prod.mk (some entry)) (hholds.save_of_ok hsaved)

theorem opening_of_initial?_eq_none
    (h : catalog.initial? (rememberedName (service.selections.load s.world).1) = none) :
    s.opening service catalog =
      ⟨{ s.state with catalog? := some catalog }, (service.selections.load s.world).2⟩ := by
  rw [opening, h]

theorem opening_of_initial?_eq_some
    (h : catalog.initial? (rememberedName (service.selections.load s.world).1) = some entry) :
    s.opening service catalog =
      ⟨{ s.state with catalog? := some catalog, selected? := some entry },
        (service.selections.save entry (service.selections.load s.world).2).2⟩ := by
  rw [opening, h]
  rfl

end Situation

namespace Service

variable {service : Service (StateM σ)} {s : Situation σ} {held : σ → Option Catalog.Entry}
  {start : Option Catalog.Entry} {Ready : σ → Prop} {catalog : Catalog} {name : String}

/-! ### Calls that fail -/

theorem neededLoads_catalog (service : Service (StateM σ)) (s : Situation σ) :
    service.neededLoads .catalog s = service.catalogLoads s := by
  have hidle : Request.catalog.isIdle = false := rfl
  simp [neededLoads, hidle, Request.schema?_catalog]

/-- A document is loaded once or not at all for the mapping of a schema. -/
theorem documentLoads_spec (service : Service (StateM σ)) (entry : Catalog.Entry)
    (s : Situation σ) :
    (service.documentLoads entry s).length ≤ 1 ∧
      ∀ load ∈ service.documentLoads entry s, load.isDocument = true := by
  rw [documentLoads]
  cases s.state.mappings.get? entry.name with
  | some mapping => exact ⟨Nat.zero_le 1, by simp⟩
  | none => exact ⟨Nat.le_refl 1, by simp [Load.isDocument]⟩

/-- The loads of a task that needs a mapping are those of the catalog, and then at most that of a
document. -/
theorem exists_neededLoads_use_eq {schema : Option String} {task : Task}
    (hidle : (Request.use schema task).isIdle = false) (s : Situation σ) :
    ∃ documents, service.neededLoads (.use schema task) s = service.catalogLoads s ++ documents ∧
      documents.length ≤ 1 ∧ ∀ load ∈ documents, load.isDocument = true := by
  rw [neededLoads, if_neg (Bool.eq_false_iff.1 hidle)]
  cases habout : (Request.use schema task).schema? (service.catalog.on s).2.state with
  | none => exact ⟨[], by simp [habout], Nat.zero_le 1, by simp⟩
  | some entry =>
    refine ⟨service.documentLoads entry (service.catalog.on s).2, by simp [habout, obtainLoads], ?_⟩
    exact documentLoads_spec service entry (service.catalog.on s).2

/-- A task that fails leaves the catalog, the mappings and the selected schema as the load of the
catalog alone leaves them, and so it leaves every part of the world that the source does not touch,
such as the entry that the store holds. If the catalog was there already, or could not be loaded,
this is how they were before. It loads the catalog if that does, and at most one document. -/
theorem take_failed_use (service : Service (StateM σ)) {part : σ → ρ}
    (hspares : service.source.Spares part) (s : Situation σ) (schema : Option String) (task : Task)
    (hfailed : ((service.answer (.use schema task)).on s).1.isOk = false) :
    let listed := service.take s (.ask .catalog)
    let after := service.take s (.ask (.use schema task))
    (after.state = listed.state ∧ part after.world = part listed.world) ∧
      (s.state.catalog? ≠ none ∨ listed.state.catalog? = none →
        listed.state = s.state ∧ part listed.world = part s.world) ∧
      ∃ documents, service.stepLoads s (.ask (.use schema task)) =
          service.stepLoads s (.ask .catalog) ++ documents ∧
        documents.length ≤ 1 ∧ ∀ load ∈ documents, load.isDocument = true := by
  intro listed after
  have hlisted : listed = (service.catalog.on s).2 := congrArg Prod.snd answer_on_catalog
  obtain ⟨hidle, hafter⟩ := answer_on_use_failed hfailed
  refine ⟨?state, ?listed, ?loads⟩
  case state =>
    obtain hready | ⟨entry, hfetching⟩ := hafter
    · have hsame : after = listed := hready.trans hlisted.symm
      rw [hsame]
      exact ⟨rfl, rfl⟩
    · have hfetched : after = listed.fetching service entry := by rw [hlisted]; exact hfetching
      rw [hfetched]
      exact ⟨rfl, hspares.loadDocument entry listed.world⟩
  case listed =>
    intro hcatalog
    rw [hlisted] at hcatalog ⊢
    obtain ⟨catalog, -, hon⟩ | ⟨-, problem, hon⟩ | ⟨hmissing, catalog, hon⟩ :=
      catalog_on_moves service s
    · rw [hon]
      exact ⟨rfl, rfl⟩
    · rw [hon]
      exact ⟨rfl, hspares.loadCatalog s.world⟩
    · -- the catalog was loaded just now
      rw [hon] at hcatalog
      rcases hcatalog with hthere | hnone
      · exact absurd hmissing hthere
      · cases hnone
  case loads =>
    rw [stepLoads_ask, stepLoads_ask, neededLoads_catalog]
    exact exists_neededLoads_use_eq hidle s

/-- The catalog is loaded, the first schema is selected and saved, and then the document of the
other one is missed. -/
theorem take_failed_use_halfStocked :
    let s : Situation Shelf := .start Shelf.halfStocked
    let listed := Shelf.service.take s (.ask .catalog)
    let after := Shelf.service.take s (.ask (.use (some "gone") (.encrypt "SELECT 1")))
    Shelf.service.source.Spares Shelf.remembered? ∧
      ((Shelf.service.answer (.use (some "gone") (.encrypt "SELECT 1"))).on s).1.isOk = false ∧
      listed.selection Shelf.remembered? =
        (some ⟨"crm", "crm.json", false⟩, some ⟨"crm", "crm.json", false⟩) ∧
      after.state = listed.state ∧ after.world.remembered? = listed.world.remembered? ∧
      ∃ documents, Shelf.service.stepLoads s
            (.ask (.use (some "gone") (.encrypt "SELECT 1"))) =
          Shelf.service.stepLoads s (.ask .catalog) ++ documents ∧
        documents.length ≤ 1 ∧ ∀ load ∈ documents, load.isDocument = true := by
  intro s listed after
  have hfailed : ((Shelf.service.answer (.use (some "gone") (.encrypt "SELECT 1"))).on
      (.start Shelf.halfStocked)).1.isOk = false := by decide +kernel
  obtain ⟨⟨hstate, hheld⟩, -, hloads⟩ :=
    take_failed_use Shelf.service Shelf.source_spares_remembered? s _ _ hfailed
  refine ⟨Shelf.source_spares_remembered?, hfailed, ?_, hstate, hheld, hloads⟩
  show (Shelf.service.take (.start Shelf.halfStocked) (.ask .catalog)).selection _ = _
  decide +kernel

/-- A schema that cannot be selected leaves the selection alone if and only if the catalog does not
list it, or it is the selected one already and the store, if it can save it, holds it already.
Otherwise it is selected and saved all the same. -/
theorem selection_failed_select_iff (service : Service (StateM σ))
    (hspares : service.source.Spares held) (hholds : service.selections.Holds held)
    (s : Situation σ) (hcatalog : s.state.catalog? = some catalog) (name : String)
    (hfailed : ((service.select name).on s).1.isOk = false) :
    let after := ((service.select name).on s).2
    (after.selection held = s.selection held ↔
      ∀ entry, catalog.find? name = some entry →
        s.state.selected? = some entry ∧
          ((service.selections.save entry s.world).1 = .ok () → held s.world = some entry)) ∧
      (∀ entry, catalog.find? name = some entry →
        after.state.selected? = some entry ∧
          ((service.selections.save entry s.world).1 = .ok () → held after.world = some entry)) ∧
      after.state.catalog? = s.state.catalog? ∧ after.state.mappings = s.state.mappings := by
  intro after
  obtain ⟨hfind, hafter⟩ | ⟨entry, hfind, hafter⟩ := select_on_failed hcatalog hfailed
  · have hsame : after = s := hafter
    simp [hsame, hfind]
  · have hafter : after = (s.selecting service entry).fetching service entry := hafter
    have hselected : after.state.selected? = some entry := by rw [hafter]; rfl
    have hheld : held after.world = held (service.selections.save entry s.world).2 := by
      rw [hafter]
      exact hspares.loadDocument entry _
    refine ⟨?alone, ?selected, ?catalog, ?mappings⟩
    case alone =>
      rw [Situation.selection, Situation.selection, Prod.mk.injEq, hselected, hheld,
        hholds.save_eq_iff, hfind]
      constructor
      · rintro ⟨hsame, hsaved⟩ other hother
        cases hother
        exact ⟨hsame.symm, hsaved⟩
      · intro hall
        obtain ⟨hsame, hsaved⟩ := hall entry rfl
        exact ⟨hsame.symm, hsaved⟩
    case selected =>
      intro other hother
      obtain rfl : entry = other := Option.some.inj (hfind.symm.trans hother)
      exact ⟨hselected, fun hsaved => hheld.trans (hholds.save_of_ok hsaved)⟩
    case catalog =>
      rw [hafter]
      rfl
    case mappings =>
      rw [hafter]
      rfl

/-- The schema whose document is missed is selected and held afterwards, and nothing is kept. -/
theorem selection_failed_select_iff_halfStocked :
    let s := Shelf.service.run [.ask .catalog] (.start Shelf.halfStocked)
    let after := ((Shelf.service.select "gone").on s).2
    Shelf.service.source.Spares Shelf.remembered? ∧
      Shelf.service.selections.Holds Shelf.remembered? ∧
      s.state.catalog? = some ⟨[⟨"crm", "crm.json", false⟩, ⟨"gone", "gone.json", false⟩]⟩ ∧
      ((Shelf.service.select "gone").on s).1.isOk = false ∧
      after.state.selected? = some ⟨"gone", "gone.json", false⟩ ∧
      after.world.remembered? = some ⟨"gone", "gone.json", false⟩ ∧
      after.state.catalog? = s.state.catalog? ∧ after.state.mappings = s.state.mappings := by
  intro s after
  have hcatalog : (Shelf.service.run [.ask .catalog] (.start Shelf.halfStocked)).state.catalog? =
      some ⟨[⟨"crm", "crm.json", false⟩, ⟨"gone", "gone.json", false⟩]⟩ := by decide +kernel
  have hfailed : ((Shelf.service.select "gone").on
      (Shelf.service.run [.ask .catalog] (.start Shelf.halfStocked))).1.isOk = false := by
    decide +kernel
  have hsaved : (Shelf.service.selections.save ⟨"gone", "gone.json", false⟩
      (Shelf.service.run [.ask .catalog] (.start Shelf.halfStocked)).world).1 = .ok () := by
    decide +kernel
  obtain ⟨-, hselected, hrest⟩ := selection_failed_select_iff Shelf.service
    Shelf.source_spares_remembered? Shelf.selections_holds_remembered? s hcatalog "gone" hfailed
  obtain ⟨hgone, hheld⟩ := hselected ⟨"gone", "gone.json", false⟩ (by decide)
  exact ⟨Shelf.source_spares_remembered?, Shelf.selections_holds_remembered?, hcatalog, hfailed,
    hgone, hheld hsaved, hrest⟩

/-- So a selection that fails does not always leave the selection alone: of the two schemas, the one
whose mapping can be loaded was selected and held before. -/
theorem not_selection_failed_select_halfStocked :
    let s := Shelf.service.run [.ask .catalog] (.start Shelf.halfStocked)
    let after := ((Shelf.service.select "gone").on s).2
    ((Shelf.service.select "gone").on s).1 =
        .error (.mappingUnavailable "gone" "404 gone.json") ∧
      s.selection Shelf.remembered? = (some ⟨"crm", "crm.json", false⟩,
        some ⟨"crm", "crm.json", false⟩) ∧
      after.selection Shelf.remembered? = (some ⟨"gone", "gone.json", false⟩,
        some ⟨"gone", "gone.json", false⟩) ∧
      after.selection Shelf.remembered? ≠ s.selection Shelf.remembered? := by
  dsimp only
  decide +kernel

/-! ### In the course of any steps -/

/-- A session does not leave the worlds that neither the source nor the store leads out of. -/
theorem Closed.invariant (h : service.Closed Ready) :
    service.Invariant fun s => Ready s.world where
  asking s hs := h.loadCatalog s.world hs
  opening s catalog hs _ := by
    have hloaded : Ready (service.selections.load s.world).2 := h.load s.world hs
    cases hinitial : catalog.initial? (rememberedName (service.selections.load s.world).1) with
    | none =>
      rw [Situation.opening_of_initial?_eq_none hinitial]
      exact hloaded
    | some entry =>
      rw [Situation.opening_of_initial?_eq_some hinitial]
      exact h.save entry _ hloaded
  fetching s entry hs := h.loadDocument entry s.world hs
  keeping _ _ _ hs := hs
  selecting s _ entry hs _ _ := h.save entry s.world hs

/-- While the store can save, the selected schema and the entry that it holds move together. -/
theorem invariant_inStep (hspares : service.source.Spares held)
    (hholds : service.selections.Holds held) (hclosed : service.Closed Ready)
    (hsaves : ∀ entry world, Ready world → (service.selections.save entry world).1 = .ok ()) :
    service.Invariant fun s => Ready s.world ∧ s.InStep held start where
  asking s h :=
    ⟨hclosed.loadCatalog s.world h.1, h.2.congr rfl (Situation.selection_asking hspares)⟩
  fetching s entry h :=
    ⟨hclosed.loadDocument entry s.world h.1, h.2.congr rfl (Situation.selection_fetching hspares)⟩
  keeping s name mapping h := ⟨h.1, h.2.congr rfl rfl⟩
  selecting s catalog entry h hcatalog hentry := by
    refine ⟨hclosed.save entry s.world h.1, .following hcatalog (Catalog.mem_of_find? hentry).1 ?_⟩
    exact Situation.selection_selecting hholds (hsaves entry s.world h.1)
  opening s catalog h hnone := by
    obtain ⟨hready, hstep⟩ := h
    have hloaded : Ready (service.selections.load s.world).2 := hclosed.load s.world hready
    cases hinitial : catalog.initial? (rememberedName (service.selections.load s.world).1) with
    | none =>
      have hempty : catalog.isEmpty = true := Catalog.isEmpty_of_initial?_eq_none hinitial
      rw [Situation.opening_of_initial?_eq_none hinitial]
      refine ⟨hloaded, .untouched ?_ ?_⟩
      · rintro other ⟨⟩
        exact hempty
      · rw [← hstep.eq_start (by simp [hnone])]
        exact congrArg (Prod.mk s.state.selected?) (hholds.load s.world)
    | some entry =>
      rw [Situation.opening_of_initial?_eq_some hinitial]
      refine ⟨hclosed.save entry _ hloaded, .following rfl (Catalog.mem_of_initial? hinitial) ?_⟩
      exact congrArg (Prod.mk (some entry)) (hholds.save_of_ok (hsaves entry _ hloaded))

/-- A request that names a schema is about the first schema of this name, and selects it when it is
answered. -/
theorem answer_on_named {request : Request} {response : Response}
    (hnames : request = .select name ∨
      ∃ task, task.isIdle = false ∧ request = .use (some name) task)
    (hanswer : ((service.answer request).on s).1 = .ok response) :
    ∃ catalog entry, (service.take s (.ask request)).state.catalog? = some catalog ∧
      catalog.find? name = some entry ∧
      (service.take s (.ask request)).state.selected? = some entry := by
  have hrequest : request ≠ .catalog ∧ request.isIdle = false ∧
      ∀ state, request.schemaName? state = some name := by
    rcases hnames with rfl | ⟨task, htask, rfl⟩
    · exact ⟨nofun, rfl, fun _ => rfl⟩
    · exact ⟨nofun, htask, fun _ => by simp [Request.schemaName?, htask]⟩
  obtain ⟨hneeds, hidle, hname⟩ := hrequest
  obtain ⟨entry, mapping, habout, -, hsame, -, hselected⟩ := answer_on_ok hneeds hidle hanswer
  obtain ⟨-, hentryName, catalog, hcatalog, hentry, -⟩ := Request.schema?_eq_some habout
  obtain rfl : entry.name = name := Option.some.inj (hentryName.symm.trans (hname _))
  exact ⟨catalog, entry, hsame.trans hcatalog, hentry, hselected⟩

/-- The selected schema and the entry that the store holds move together, in worlds in which the
store can save. Until a catalog is there, none is selected and the store holds what it held at the
start. This stays so if the catalog lists no schema; else one of its entries is selected and held
from then on. To ask for a catalog that is there, or to check the empty text, changes nothing. And a
request that names a schema leaves the first entry of this name selected and held when it is
answered. -/
theorem selection_run (service : Service (StateM σ)) (hspares : service.source.Spares held)
    (hholds : service.selections.Holds held) (hclosed : service.Closed Ready)
    (hsaves : ∀ entry world, Ready world → (service.selections.save entry world).1 = .ok ())
    (world : σ) (hworld : Ready world) (earlier later : List (Step σ))
    (hchange : ∀ change, .change change ∈ earlier ++ later → ∀ world,
      held (change world) = held world ∧ (Ready world → Ready (change world))) :
    let past := service.run earlier (.start world)
    let now := service.run later past
    (past.state.catalog? = none → past.selection held = (none, held world)) ∧
      (∀ catalog, past.state.catalog? = some catalog →
        now.state.catalog? = some catalog ∧
          (catalog.isEmpty = true → now.selection held = (none, held world)) ∧
          (catalog.isEmpty = false →
            ∃ entry ∈ catalog.entries, now.selection held = (some entry, some entry)) ∧
          service.take now (.ask .catalog) = now) ∧
      (∀ request, request.isIdle = true → service.take now (.ask request) = now) ∧
      ∀ request name response,
        (request = .select name ∨ ∃ task, task.isIdle = false ∧ request = .use (some name) task) →
          ((service.answer request).on now).1 = .ok response →
            ∃ catalog entry, (service.take now (.ask request)).state.catalog? = some catalog ∧
              catalog.find? name = some entry ∧
              (service.take now (.ask request)).selection held = (some entry, some entry) := by
  intro past now
  have hinvariant : service.Invariant fun s => Ready s.world ∧ s.InStep held (held world) :=
    invariant_inStep hspares hholds hclosed hsaves
  have hkept : ∀ change, .change change ∈ earlier ++ later → ∀ s : Situation σ,
      Ready s.world ∧ s.InStep held (held world) →
        Ready (change s.world) ∧ Situation.InStep held (held world) ⟨s.state, change s.world⟩ := by
    rintro change hmem s ⟨hready, hstep⟩
    obtain ⟨hheld, hstays⟩ := hchange change hmem s.world
    exact ⟨hstays hready, hstep.congr rfl (congrArg (Prod.mk s.state.selected?) hheld)⟩
  have hstart : (Situation.start world).InStep held (held world) := .untouched nofun rfl
  have hpast : Ready past.world ∧ past.InStep held (held world) :=
    hinvariant.run (fun change hmem => hkept change (List.mem_append_left _ hmem))
      ⟨hworld, hstart⟩
  have hnow : Ready now.world ∧ now.InStep held (held world) :=
    hinvariant.run (fun change hmem => hkept change (List.mem_append_right _ hmem)) hpast
  refine ⟨?before, ?after, ?idle, ?named⟩
  case before =>
    intro hnone
    refine hpast.2.eq_start fun catalog hcatalog => ?_
    rw [hnone] at hcatalog
    cases hcatalog
  case after =>
    intro catalog hcatalog
    have hthere : now.state.catalog? = some catalog :=
      (keeps_run service later past).catalog?_eq hcatalog
    have hagain : service.take now (.ask .catalog) = now := by
      rw [take, answer_on_catalog, catalog_on_of_some hthere]
    refine ⟨hthere, fun hempty => ?_, hnow.2.exists_entry hthere, hagain⟩
    refine hnow.2.eq_start fun other hother => ?_
    obtain rfl : catalog = other := Option.some.inj (hthere.symm.trans hother)
    exact hempty
  case idle =>
    intro request hidle
    obtain ⟨response, hanswer⟩ := answer_on_of_isIdle hidle
    rw [take, hanswer]
  case named =>
    intro request name response hnames hanswer
    obtain ⟨catalog, entry, hcatalog, hentry, hselected⟩ := answer_on_named hnames hanswer
    have hstep : (service.take now (.ask request)).InStep held (held world) :=
      (hinvariant.answer_on hnow).2
    exact ⟨catalog, entry, hcatalog, hentry, hstep.selection_eq hselected⟩

/-- After the troubles of a shelf, the two hold the schema that could not be selected, and whatever
is asked next, they hold one of the two schemas. -/
theorem selection_run_troubles :
    let past := Shelf.service.run Shelf.troubles (.start Shelf.halfStocked)
    let now := Shelf.service.run [.ask (.use (some "crm") .mapping)] past
    Shelf.service.source.Spares Shelf.remembered? ∧
      Shelf.service.selections.Holds Shelf.remembered? ∧
      Shelf.service.Closed (fun shelf => shelf.failsToSave = false) ∧
      (∀ entry shelf, shelf.failsToSave = false →
        (Shelf.service.selections.save entry shelf).1 = .ok ()) ∧
      Shelf.halfStocked.failsToSave = false ∧
      (∀ change, .change change ∈ Shelf.troubles ++ [.ask (.use (some "crm") .mapping)] →
        ∀ shelf : Shelf, (change shelf).remembered? = shelf.remembered? ∧
          (shelf.failsToSave = false → (change shelf).failsToSave = false)) ∧
      past.selection Shelf.remembered? =
        (some ⟨"gone", "gone.json", false⟩, some ⟨"gone", "gone.json", false⟩) ∧
      ∃ entry ∈ [(⟨"crm", "crm.json", false⟩ : Catalog.Entry), ⟨"gone", "gone.json", false⟩],
        now.selection Shelf.remembered? = (some entry, some entry) := by
  intro past now
  have hsaves : ∀ entry shelf, shelf.failsToSave = false →
      (Shelf.service.selections.save entry shelf).1 = .ok () :=
    fun entry _ => Shelf.selections_save_of_failsToSave_eq_false entry
  have hchange : ∀ change,
      .change change ∈ Shelf.troubles ++ [.ask (.use (some "crm") .mapping)] →
        ∀ shelf : Shelf, (change shelf).remembered? = shelf.remembered? ∧
          (shelf.failsToSave = false → (change shelf).failsToSave = false) := by
    intro change hmem shelf
    simp only [Shelf.troubles, List.mem_append, List.mem_cons, Step.change.injEq, reduceCtorEq,
      List.not_mem_nil, or_false, false_or] at hmem
    subst hmem
    exact ⟨rfl, id⟩
  have hcatalog : (Shelf.service.run Shelf.troubles (.start Shelf.halfStocked)).state.catalog? =
      some ⟨[⟨"crm", "crm.json", false⟩, ⟨"gone", "gone.json", false⟩]⟩ := by decide +kernel
  have hpast : (Shelf.service.run Shelf.troubles (.start Shelf.halfStocked)).selection
      Shelf.remembered? =
        (some ⟨"gone", "gone.json", false⟩, some ⟨"gone", "gone.json", false⟩) := by
    decide +kernel
  obtain ⟨-, hafter, -⟩ := selection_run Shelf.service Shelf.source_spares_remembered?
    Shelf.selections_holds_remembered? Shelf.service_closed_failsToSave hsaves Shelf.halfStocked rfl
    Shelf.troubles [.ask (.use (some "crm") .mapping)] hchange
  obtain ⟨-, -, hlists, -⟩ := hafter _ hcatalog
  exact ⟨Shelf.source_spares_remembered?, Shelf.selections_holds_remembered?,
    Shelf.service_closed_failsToSave, hsaves, rfl, hchange, hpast, hlists rfl⟩

end Service

end Codename.Session
