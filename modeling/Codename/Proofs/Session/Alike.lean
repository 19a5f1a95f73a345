import Codename.Proofs.Session.Invariant
import Codename.Proofs.Session.Loads
import Mathlib.Data.List.Forall2

/-!
# Services that act alike

Two services act alike when their sources give the same answers in worlds that are linked, and
worlds stay linked whatever the services do. Their stores may give anything. When the same is asked
of both, their sessions give the same answers, are in the same states and load the same, as long as
the stores give the same name of a schema when the catalog comes to be there: a store is read at no
other point, and only the name is taken from it.

## Main definitions

* `Service.Alike`, `Situation.Alike` — services that act alike, and their sessions.
* `Service.nameAtOpening?` — the name that the store gives when the catalog comes to be there.
* `Service.trace` — what is seen of a session in the course of some steps.

## Main statements

* `Service.Alike.answer_on` — one request to both services.
* `Service.Alike.trace_eq` — any steps of both.
-/

namespace Codename.Session

variable {σ τ α β : Type}

/-- In linked worlds the sources of two services give the same answers, and the worlds are linked
afterwards, and also after the stores were used. -/
structure Service.Alike (first : Service (StateM σ)) (second : Service (StateM τ))
    (Linked : σ → τ → Prop) : Prop where
  loadCatalog : ∀ {world other}, Linked world other →
    (first.source.loadCatalog world).1 = (second.source.loadCatalog other).1 ∧
      Linked (first.source.loadCatalog world).2 (second.source.loadCatalog other).2
  loadDocument : ∀ entry {world other}, Linked world other →
    (first.source.loadDocument entry world).1 = (second.source.loadDocument entry other).1 ∧
      Linked (first.source.loadDocument entry world).2 (second.source.loadDocument entry other).2
  load : ∀ {world other}, Linked world other →
    Linked (first.selections.load world).2 (second.selections.load other).2
  save : ∀ entry {world other}, Linked world other →
    Linked (first.selections.save entry world).2 (second.selections.save entry other).2

/-- Two sessions in the same state, in linked worlds. -/
structure Situation.Alike (Linked : σ → τ → Prop) (s : Situation σ) (t : Situation τ) : Prop where
  state : s.state = t.state
  world : Linked s.world t.world

/-- Two calls with the same answer that leave linked sessions. -/
structure Call.Agree (Linked : σ → τ → Prop) (here : Except Problem α × Situation σ)
    (there : Except Problem α × Situation τ) : Prop where
  answer : here.1 = there.1
  linked : here.2.Alike Linked there.2

theorem Call.Agree.exists_eq {Linked : σ → τ → Prop} {here : Except Problem α × Situation σ}
    {there : Except Problem α × Situation τ} (h : Call.Agree Linked here there) :
    ∃ answer s t, here = (answer, s) ∧ there = (answer, t) ∧ s.Alike Linked t :=
  ⟨here.1, here.2, there.2, rfl, Prod.ext h.answer.symm rfl, h.linked⟩

theorem Call.Agree.map {Linked : σ → τ → Prop} {here : Except Problem α × Situation σ}
    {there : Except Problem α × Situation τ} (h : Call.Agree Linked here there) (f : α → β) :
    Call.Agree Linked (here.1.map f, here.2) (there.1.map f, there.2) :=
  ⟨congrArg (Except.map f) h.answer, h.linked⟩

/-- The same request, or changes that leave linked worlds linked. -/
inductive Step.Alike (Linked : σ → τ → Prop) : Step σ → Step τ → Prop
  | ask (request : Request) : Alike Linked (.ask request) (.ask request)
  | change {change : σ → σ} {other : τ → τ}
      (h : ∀ world there, Linked world there → Linked (change world) (other there)) :
      Alike Linked (.change change) (.change other)

theorem Step.Alike.forall₂_map {Linked : σ → τ → Prop} {f : Step τ → Step σ}
    (h : ∀ step, Step.Alike Linked (f step) step) (steps : List (Step τ)) :
    List.Forall₂ (Step.Alike Linked) (steps.map f) steps := by
  rw [List.forall₂_map_left_iff, List.forall₂_same]
  exact fun step _ => h step

namespace Service

/-- The name that the store gives after the source was asked for the catalog. -/
def storedName (service : Service (StateM σ)) (s : Situation σ) : Option String :=
  rememberedName (service.selections.load (s.asking service).world).1

/-- The name that the store gives if the catalog comes to be there with the step. -/
def openingName? (service : Service (StateM σ)) (s : Situation σ) (step : Step σ) :
    Option (Option String) :=
  if s.state.catalog?.isNone && (service.take s step).state.catalog?.isSome then
    some (service.storedName s)
  else none

/-- The name that the store gives when the catalog comes to be there, if that is in the course of
the steps. -/
def nameAtOpening? (service : Service (StateM σ)) :
    List (Step σ) → Situation σ → Option (Option String)
  | [], _ => none
  | step :: steps, s =>
    (service.openingName? s step).or (service.nameAtOpening? steps (service.take s step))

/-- What is seen of a session at a step: the answer to a request, what is loaded and selected
afterwards, and the loads that the source was asked for. -/
structure Sight where
  answer? : Option (Except Problem Response)
  state : State
  loads : List Load

/-- What is seen at a step. -/
def see (service : Service (StateM σ)) (s : Situation σ) (step : Step σ) : Sight where
  answer? :=
    match step with
    | .ask request => some ((service.answer request).on s).1
    | .change _ => none
  state := (service.take s step).state
  loads := service.stepLoads s step

/-- What is seen in the course of some steps. -/
def trace (service : Service (StateM σ)) : List (Step σ) → Situation σ → List Sight
  | [], _ => []
  | step :: steps, s => service.see s step :: service.trace steps (service.take s step)

variable {service : Service (StateM σ)} {request : Request} {s : Situation σ}

theorem catalog?_obtain_on (service : Service (StateM σ)) (entry : Catalog.Entry)
    (hneeds : request ≠ .catalog) (ready : Situation σ) :
    ((service.obtain entry request).on ready).2.state.catalog? = ready.state.catalog? := by
  cases request with
  | catalog => exact absurd rfl hneeds
  | select name =>
    rw [obtain_on_select]
    exact (state_load_on service entry (ready.selecting service entry)).1
  | use schema task =>
    have hloaded := (state_load_on service entry ready).1
    rw [obtain_on_use]
    rcases hload : (service.load entry).on ready with ⟨problem | mapping, s'⟩
    · rwa [hload] at hloaded
    · rwa [hload] at hloaded

theorem catalog?_catalog_on (service : Service (StateM σ)) (s : Situation σ) :
    (service.catalog.on s).2.state.catalog? =
      s.state.catalog?.or (service.source.loadCatalog s.world).1.toOption := by
  rw [catalog_on_eq]
  cases hcatalog : s.state.catalog? with
  | some catalog => exact hcatalog
  | none =>
    cases (service.source.loadCatalog s.world).1 with
    | error reason => exact hcatalog
    | ok catalog => rfl

/-- A request that is not idle leaves the catalog as the load of the catalog leaves it. -/
theorem catalog?_answer_on (hidle : request.isIdle = false) :
    ((service.answer request).on s).2.state.catalog? = (service.catalog.on s).2.state.catalog? := by
  by_cases hneeds : request = .catalog
  · rw [hneeds, answer_on_catalog]
  · cases habout : request.schema? (service.catalog.on s).2.state with
    | none => rw [answer_on_of_none hidle habout]
    | some entry =>
      rw [answer_on_of_some habout]
      exact catalog?_obtain_on service entry hneeds _

/-! ### The name at the opening -/

theorem openingName?_eq_some {step : Step σ} (hmissing : s.state.catalog? = none)
    (hopened : (service.take s step).state.catalog? ≠ none) :
    service.openingName? s step = some (service.storedName s) := by
  rw [openingName?, hmissing, Option.isSome_iff_ne_none.2 hopened]
  rfl

/-- The catalog comes to be there only once. -/
theorem nameAtOpening?_of_some {catalog : Catalog} (hcatalog : s.state.catalog? = some catalog)
    (steps : List (Step σ)) : service.nameAtOpening? steps s = none := by
  induction steps generalizing s with
  | nil => rfl
  | cons step steps ih =>
    have hthere : (service.take s step).state.catalog? = some catalog :=
      (keeps_take service s step).catalog?_eq hcatalog
    rw [nameAtOpening?, ih hthere, openingName?, hcatalog]
    rfl

variable {name : Option String} {step : Step σ} {steps : List (Step σ)}

theorem mem_nameAtOpening?_of_mem (h : name ∈ service.openingName? s step) :
    name ∈ service.nameAtOpening? (step :: steps) s := by
  rw [nameAtOpening?, Option.mem_def.1 h]
  rfl

theorem mem_nameAtOpening?_cons (h : name ∈ service.nameAtOpening? steps (service.take s step)) :
    name ∈ service.nameAtOpening? (step :: steps) s := by
  have hmissing : (service.take s step).state.catalog? = none := by
    cases hcatalog : (service.take s step).state.catalog? with
    | none => rfl
    | some catalog =>
      rw [nameAtOpening?_of_some hcatalog] at h
      cases h
  rw [nameAtOpening?, openingName?, hmissing, Option.isSome_none, Bool.and_false]
  exact h

end Service

namespace Service.Alike

variable {first : Service (StateM σ)} {second : Service (StateM τ)} {Linked : σ → τ → Prop}
  {s : Situation σ} {t : Situation τ} {entry : Catalog.Entry} {request : Request}

/-! ### Requests -/

theorem selecting (h : first.Alike second Linked) (hs : s.Alike Linked t) (entry : Catalog.Entry) :
    (s.selecting first entry).Alike Linked (t.selecting second entry) where
  state := by rw [Situation.selecting, Situation.selecting, hs.state]
  world := h.save entry hs.world

theorem opening (h : first.Alike second Linked) (hs : s.Alike Linked t)
    (hname : rememberedName (first.selections.load s.world).1 =
      rememberedName (second.selections.load t.world).1) (catalog : Catalog) :
    (s.opening first catalog).Alike Linked (t.opening second catalog) := by
  have hloaded : Situation.Alike Linked ⟨s.state, (first.selections.load s.world).2⟩
      ⟨t.state, (second.selections.load t.world).2⟩ := ⟨hs.state, h.load hs.world⟩
  rw [Situation.opening, Situation.opening, hname]
  cases catalog.initial? (rememberedName (second.selections.load t.world).1) with
  | none =>
    exact ⟨congrArg (fun state => { state with catalog? := some catalog }) hs.state, hloaded.world⟩
  | some entry =>
    have hselected := h.selecting hloaded entry
    exact ⟨congrArg (fun state => { state with catalog? := some catalog }) hselected.state,
      hselected.world⟩

/-- The catalog is the same, for sessions that open with the same name. -/
theorem catalog_on (h : first.Alike second Linked) (hs : s.Alike Linked t)
    (hname : s.state.catalog? = none → (first.catalog.on s).2.state.catalog? ≠ none →
      first.storedName s = second.storedName t) :
    Call.Agree Linked (first.catalog.on s) (second.catalog.on t) := by
  obtain ⟨hanswer, hworld⟩ := h.loadCatalog hs.world
  have hasked : (s.asking first).Alike Linked (t.asking second) := ⟨hs.state, hworld⟩
  rw [catalog?_catalog_on] at hname
  rw [catalog_on_eq, catalog_on_eq, ← hs.state, ← hanswer]
  cases hcatalog : s.state.catalog? with
  | some catalog => exact ⟨rfl, hs⟩
  | none =>
    rw [hcatalog, Option.none_or] at hname
    cases hload : (first.source.loadCatalog s.world).1 with
    | error reason => exact ⟨rfl, hasked⟩
    | ok catalog =>
      -- this is the only point at which the stores are read
      rw [hload] at hname
      exact ⟨rfl, h.opening hasked (hname rfl (Option.some_ne_none catalog)) catalog⟩

theorem load_on (h : first.Alike second Linked) (hs : s.Alike Linked t) (entry : Catalog.Entry) :
    Call.Agree Linked ((first.load entry).on s) ((second.load entry).on t) := by
  obtain ⟨hanswer, hworld⟩ := h.loadDocument entry hs.world
  have hfetched : (s.fetching first entry).Alike Linked (t.fetching second entry) :=
    ⟨hs.state, hworld⟩
  rw [load_on_eq, load_on_eq, ← hs.state, ← hanswer]
  cases s.state.mappings.get? entry.name with
  | some mapping => exact ⟨rfl, hs⟩
  | none =>
    cases mappingOf entry (first.source.loadDocument entry s.world).1 with
    | error problem => exact ⟨rfl, hfetched⟩
    | ok mapping =>
      refine ⟨rfl, ?_, hfetched.world⟩
      exact congrArg (fun state : State => { state with
        mappings := state.mappings.insert entry.name mapping }) hs.state

theorem obtain_on (h : first.Alike second Linked) (hs : s.Alike Linked t)
    (hneeds : request ≠ .catalog) (entry : Catalog.Entry) :
    Call.Agree Linked ((first.obtain entry request).on s) ((second.obtain entry request).on t) := by
  cases request with
  | catalog => exact absurd rfl hneeds
  | select name =>
    rw [obtain_on_select, obtain_on_select]
    exact h.load_on (h.selecting hs entry) entry
  | use schema task =>
    obtain ⟨answer, s', t', hload, hother, hlinked⟩ := (h.load_on hs entry).exists_eq
    rw [obtain_on_use, obtain_on_use, hload, hother]
    cases answer with
    | error problem => exact ⟨rfl, hlinked⟩
    | ok mapping => exact ⟨rfl, h.selecting hlinked entry⟩

/-- A request has the same answer and leaves linked sessions, if they open with the same name. -/
theorem answer_on (h : first.Alike second Linked) (hs : s.Alike Linked t)
    (hname : s.state.catalog? = none → ((first.answer request).on s).2.state.catalog? ≠ none →
      first.storedName s = second.storedName t) :
    Call.Agree Linked ((first.answer request).on s) ((second.answer request).on t) := by
  cases hidle : request.isIdle with
  | true =>
    obtain ⟨response, hanswer⟩ := answer_on_of_isIdle hidle
    rw [hanswer, hanswer]
    exact ⟨rfl, hs⟩
  | false =>
    rw [catalog?_answer_on hidle] at hname
    have hcatalog := h.catalog_on hs hname
    by_cases hneeds : request = .catalog
    · rw [hneeds, answer_on_catalog, answer_on_catalog]
      exact hcatalog.map Response.catalog
    · obtain ⟨answer, ready, other, hready, hother, hlinked⟩ := hcatalog.exists_eq
      rw [Service.answer_on hneeds hidle, Service.answer_on hneeds hidle, hready, hother]
      cases answer with
      | error problem => exact ⟨rfl, hlinked⟩
      | ok catalog =>
        have hstate : ready.state = other.state := hlinked.state
        dsimp only
        rw [hstate]
        cases request.find catalog other.state with
        | error problem => exact ⟨rfl, hlinked⟩
        | ok entry => exact (h.obtain_on hlinked hneeds entry).map _

/-- The catalog comes to be there in both sessions or in neither, whatever the stores give. -/
theorem catalog?_answer_on_eq (h : first.Alike second Linked) (hs : s.Alike Linked t) :
    ((first.answer request).on s).2.state.catalog? =
      ((second.answer request).on t).2.state.catalog? := by
  cases hidle : request.isIdle with
  | true =>
    obtain ⟨response, hanswer⟩ := answer_on_of_isIdle hidle
    rw [hanswer, hanswer, hs.state]
  | false =>
    rw [catalog?_answer_on hidle, catalog?_answer_on hidle, catalog?_catalog_on,
      catalog?_catalog_on, hs.state, (h.loadCatalog hs.world).1]

/-! ### Steps -/

/-- Services that act alike do so when their loads are recorded, and their records stay the same. -/
theorem recorded (h : first.Alike second Linked) :
    first.recorded.Alike second.recorded fun record other =>
      Linked record.world other.world ∧ record.loads = other.loads where
  loadCatalog hlinked := by
    obtain ⟨hworld, hloads⟩ := hlinked
    obtain ⟨hanswer, hafter⟩ := h.loadCatalog hworld
    refine ⟨hanswer, hafter, ?_⟩
    exact congrArg₂ (fun loads answer => loads ++ [Load.catalog answer]) hloads hanswer
  loadDocument entry _ _ hlinked := by
    obtain ⟨hworld, hloads⟩ := hlinked
    obtain ⟨hanswer, hafter⟩ := h.loadDocument entry hworld
    refine ⟨hanswer, hafter, ?_⟩
    exact congrArg₂ (fun loads answer => loads ++ [Load.document entry answer]) hloads hanswer
  load hlinked := ⟨h.load hlinked.1, hlinked.2⟩
  save entry _ _ hlinked := ⟨h.save entry hlinked.1, hlinked.2⟩

theorem see_eq (h : first.Alike second Linked) (hs : s.Alike Linked t) {step : Step σ}
    {other : Step τ} (hstep : step.Alike Linked other)
    (hname : ∀ name ∈ first.openingName? s step, ∀ same ∈ second.openingName? t other,
      name = same) :
    first.see s step = second.see t other ∧
      (first.take s step).Alike Linked (second.take t other) := by
  cases hstep with
  | @change change other hchange =>
    have hafter : Situation.Alike Linked ⟨s.state, change s.world⟩ ⟨t.state, other t.world⟩ :=
      ⟨hs.state, hchange _ _ hs.world⟩
    exact ⟨congrArg (Sight.mk none · []) hs.state, hafter⟩
  | ask request =>
    have hstored : s.state.catalog? = none →
        ((first.answer request).on s).2.state.catalog? ≠ none →
          first.storedName s = second.storedName t := by
      intro hmissing hopened
      have hother : (second.take t (.ask request)).state.catalog? ≠ none :=
        h.catalog?_answer_on_eq hs ▸ hopened
      exact hname _ (openingName?_eq_some hmissing hopened) _
        (openingName?_eq_some (hs.state ▸ hmissing) hother)
    obtain ⟨hanswer, hafter⟩ := h.answer_on hs hstored
    -- the loads are those of the same request where they are recorded
    have hrecording : Situation.Alike (fun record other =>
        Linked record.world other.world ∧ record.loads = other.loads)
        (s.recording []) (t.recording []) := ⟨hs.state, hs.world, rfl⟩
    have hstored' : (s.recording []).state.catalog? = none →
        ((first.recorded.answer request).on (s.recording [])).2.state.catalog? ≠ none →
          first.recorded.storedName (s.recording []) =
            second.recorded.storedName (t.recording []) := by
      rw [answer_on_recorded]
      exact hstored
    have hrecorded := h.recorded.answer_on hrecording hstored'
    refine ⟨?_, hafter⟩
    rw [see, see, hanswer]
    exact congrArg₂ (Sight.mk _) hafter.state hrecorded.linked.world.2

/-- The same is seen of both sessions in the course of any steps, if they open with the same
name. -/
theorem trace_eq (h : first.Alike second Linked) {steps : List (Step σ)} {others : List (Step τ)}
    (hsteps : List.Forall₂ (Step.Alike Linked) steps others) (hs : s.Alike Linked t)
    (hname : ∀ name ∈ first.nameAtOpening? steps s, ∀ same ∈ second.nameAtOpening? others t,
      name = same) :
    first.trace steps s = second.trace others t := by
  induction hsteps generalizing s t with
  | nil => rfl
  | @cons step other steps others hstep _ ih =>
    obtain ⟨hseen, hafter⟩ := h.see_eq hs hstep fun name hmem same hmem' =>
      hname name (mem_nameAtOpening?_of_mem hmem) same (mem_nameAtOpening?_of_mem hmem')
    rw [trace, trace, hseen, ih hafter]
    exact fun name hmem same hmem' =>
      hname name (mem_nameAtOpening?_cons hmem) same (mem_nameAtOpening?_cons hmem')

/-- The sessions stay alike in the course of any steps, if the stores always give the same name. -/
theorem run (h : first.Alike second Linked) {steps : List (Step σ)} {others : List (Step τ)}
    (hsteps : List.Forall₂ (Step.Alike Linked) steps others) (hs : s.Alike Linked t)
    (hname : ∀ s t, s.Alike Linked t → first.storedName s = second.storedName t) :
    (first.run steps s).Alike Linked (second.run others t) := by
  induction hsteps generalizing s t with
  | nil => exact hs
  | cons hstep _ ih =>
    refine ih ?_
    cases hstep with
    | ask request => exact (h.answer_on hs fun _ _ => hname s t hs).linked
    | change hchange => exact ⟨hs.state, hchange _ _ hs.world⟩

end Service.Alike

end Codename.Session
