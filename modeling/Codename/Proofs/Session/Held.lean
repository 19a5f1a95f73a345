import Codename.Proofs.Files.Frame
import Codename.Proofs.Session.Restart
import Codename.Proofs.Session.Stores

/-!
# What stores hold

A store in memory and a store in a file both hold the entry that they give when they are loaded: it
stays until another entry is saved, and also if this fails. For a file this rests on a host that
leaves it as it is where it cannot be written.

A service without a state file has a store in memory that is empty when the service starts. All that
a session takes from its store is the name that it gives when the catalog comes to be there, before
anything was saved. So the store might as well keep nothing, which is how such a service is put
together.

## Main definitions

* `SelectionStore.given?` — the entry that a store gives.
* `Step.beside` — a step that leaves a part of the world alone.

## Main statements

* `SelectionStore.inMemory_holds`, `SelectionStore.ofFile_holds` — what the stores hold.
* `Service.invariant_inStep_inMemory` — the selection of a session with a store in memory.
* `Service.trace_ofConfig_inMemory` — a service without a state file.
-/

namespace Codename.Session

open Codename.Files (FileError Host Tree)

variable {σ τ : Type}

/-! ### The entry of a store -/

namespace SelectionStore

/-- The entry that the store gives when it is loaded, if it can be read and holds one. -/
def given? (selections : SelectionStore (StateM σ)) (world : σ) : Option Catalog.Entry :=
  (selections.load world).1.toOption.join

/-- A store in memory holds what was saved last. -/
theorem inMemory_holds : inMemory.Holds inMemory.given? where
  load _ := rfl
  save _ _ := rfl

variable {host : Host (StateM σ)} {path : String}

theorem join_readEntry (path : String) (content : Except FileError String) :
    (readEntry path content).toOption.join =
      content.toOption.bind fun text => (Catalog.Entry.reader.parse text).toOption := by
  cases content with
  | error error => cases error <;> rfl
  | ok text =>
    show (readEntry path (.ok text)).toOption.join = (Catalog.Entry.reader.parse text).toOption
    rw [readEntry, readValue]
    cases Catalog.Entry.reader.parse text <;> rfl

theorem given?_ofFile (host : Host (StateM σ)) (path : String) (world : σ) :
    (ofFile host path).given? world =
      (host.read path world).1.toOption.bind fun text =>
        (Catalog.Entry.reader.parse text).toOption :=
  join_readEntry path (host.read path world).1

/-- An entry that cannot be saved leaves the file with what could be read there. -/
theorem toOption_read_save (hpreserves : host.Preserves path) {entry : Catalog.Entry} {world : σ}
    {reason : String} (hfailed : ((ofFile host path).save entry world).1 = .error reason) :
    (host.read path ((ofFile host path).save entry world).2).1.toOption =
      (host.read path world).1.toOption := by
  have hmade : (host.read path (makeDirectory host path world).2).1.toOption =
      (host.read path world).1.toOption := by
    rw [makeDirectory]
    cases hparent : Path.parent? path with
    | some directory => exact hpreserves.makeDirectories directory hparent world
    | none => rfl
  rw [save_ofFile] at hfailed ⊢
  dsimp only at hfailed ⊢
  split at hfailed
  · exact hmade
  · obtain ⟨error, hwrite, -⟩ := mapError_eq_error.1 hfailed
    exact (hpreserves.write _ error _ hwrite).trans hmade

/-- A store in a file holds the entry that is read from the file. -/
theorem ofFile_holds (hkeeps : host.Keeps path) (hpreserves : host.Preserves path) :
    (ofFile host path).Holds (ofFile host path).given? where
  load world := by
    rw [given?_ofFile, given?_ofFile, load_ofFile, hkeeps.read]
  save entry world := by
    cases hsaved : ((ofFile host path).save entry world).1 with
    | ok _ =>
      rw [given?, load_save hkeeps hsaved]
      rfl
    | error reason => rw [given?_ofFile, given?_ofFile, toOption_read_save hpreserves hsaved]

/-- On a file tree, a store in a file for which no directory is made, such as `last.json`. -/
theorem ofFile_host_holds (input : ByteArray)
    (h : ∀ directory, Path.parent? path = some directory → Path.components directory = []) :
    (ofFile (Tree.host input) path).Holds (ofFile (Tree.host input) path).given? :=
  ofFile_holds (Tree.host_keeps input path) (Tree.host_preserves input h)

end SelectionStore

/-! ### A store beside its source -/

/-- The same step beside a part of the world that it leaves alone. -/
def Step.beside : Step σ → Step (σ × τ)
  | .ask request => .ask request
  | .change next => .change fun world => (next world.1, world.2)

theorem Step.beside_alike (step : Step σ) :
    Step.Alike (fun (here : σ × τ) there => here.1 = there) step.beside step := by
  cases step with
  | ask request => exact .ask request
  | change next => exact .change fun _ _ hsame => congrArg next hsame

namespace Service

variable {source : Source (StateM σ)} {selections : SelectionStore (StateM τ)}
  {held : τ → Option Catalog.Entry}

theorem ofParts_spares (source : Source (StateM σ)) (selections : SelectionStore (StateM τ)) :
    (ofParts source selections).source.Spares Prod.snd where
  loadCatalog _ := rfl
  loadDocument _ _ := rfl

theorem ofParts_holds (h : selections.Holds held) (source : Source (StateM σ)) :
    (ofParts source selections).selections.Holds fun world => held world.2 where
  load world := h.load world.2
  save entry world := h.save entry world.2

/-- In a session with a store in memory the selected schema and the entry in the store move
together, for saving it never fails. -/
theorem invariant_inStep_inMemory (source : Source (StateM σ)) (start : Option Catalog.Entry) :
    (ofParts source .inMemory).Invariant fun s => s.InStep Prod.snd start := by
  have hclosed : (ofParts source SelectionStore.inMemory).Closed fun _ => True :=
    ⟨fun _ _ => trivial, fun _ _ _ => trivial, fun _ _ => trivial, fun _ _ _ => trivial⟩
  have hinvariant : (ofParts source SelectionStore.inMemory).Invariant fun s =>
      True ∧ s.InStep Prod.snd start :=
    invariant_inStep (ofParts_spares source .inMemory)
      (ofParts_holds SelectionStore.inMemory_holds source) hclosed fun _ _ _ => rfl
  simpa using hinvariant

/-! ### A service without a state file -/

/-- A store that gives the same name for as long as there is no catalog gives this one when the
catalog comes to be there. -/
theorem eq_of_mem_nameAtOpening? {service : Service (StateM σ)} {P : Situation σ → Prop}
    (h : service.Invariant P) {name : Option String}
    (hname : ∀ s, P s → s.state.catalog? = none → service.storedName s = name)
    {steps : List (Step σ)} {s : Situation σ}
    (hchange : ∀ change, .change change ∈ steps → ∀ s, P s → P ⟨s.state, change s.world⟩)
    (hs : P s) : ∀ found ∈ service.nameAtOpening? steps s, found = name := by
  induction steps generalizing s with
  | nil => nofun
  | cons step steps ih =>
    intro found hfound
    have hnext : P (service.run [step] s) := by
      refine h.run (fun change hmem => hchange change ?_) hs
      exact List.mem_cons.2 (.inl (List.mem_singleton.1 hmem))
    rw [nameAtOpening?, openingName?] at hfound
    cases hopens : s.state.catalog?.isNone && (service.take s step).state.catalog?.isSome with
    | true =>
      rw [hopens] at hfound
      have hmissing := (Bool.and_eq_true_iff.1 hopens).1
      rw [← Option.some.inj hfound]
      exact hname s hs (Option.isNone_iff_eq_none.1 hmissing)
    | false =>
      rw [hopens] at hfound
      exact ih (fun change hmem => hchange change (List.mem_cons_of_mem _ hmem)) hnext found hfound

theorem ofParts_alike_forgetful (source : Source (StateM σ))
    (selections : SelectionStore (StateM τ)) :
    (ofParts source selections).Alike ⟨source, .forgetful⟩ fun here there => here.1 = there where
  loadCatalog {here there} hsame := by
    subst hsame
    exact ⟨rfl, rfl⟩
  loadDocument entry {here there} hsame := by
    subst hsame
    exact ⟨rfl, rfl⟩
  load hsame := hsame
  save _ _ _ hsame := hsame

/-- Of a session whose store is in memory and empty at first, the same is seen as if the store kept
nothing. -/
theorem trace_inMemory (source : Source (StateM σ)) (world : σ) (steps : List (Step σ)) :
    (ofParts source .inMemory).trace (steps.map Step.beside) (.start (world, none)) =
      (Service.mk source .forgetful).trace steps (.start world) := by
  have hchange : ∀ change, .change change ∈ steps.map Step.beside →
      ∀ s : Situation (σ × Option Catalog.Entry), (s.state.catalog? = none → s.world.2 = none) →
        s.state.catalog? = none → (change s.world).2 = none := by
    intro change hmem s hs
    obtain ⟨step, -, hbeside⟩ := List.mem_map.1 hmem
    cases step with
    | ask request => cases hbeside
    | change next => cases hbeside; exact hs
  have hempty : ∀ s : Situation (σ × Option Catalog.Entry),
      (s.state.catalog? = none → s.world.2 = none) → s.state.catalog? = none →
        (ofParts source .inMemory).storedName s = none := by
    intro s hs hnone
    show rememberedName (.ok s.world.2) = none
    rw [hs hnone]
    rfl
  -- nothing is saved before the catalog is there
  have hunopened : (ofParts source .inMemory).Invariant fun s =>
      s.state.catalog? = none → s.world.2 = none :=
    invariant_unopened (ofParts_spares source .inMemory) none
  have hnever : (Service.mk source .forgetful).Invariant fun _ => True :=
    ⟨fun _ _ => trivial, fun _ _ _ _ => trivial, fun _ _ _ => trivial, fun _ _ _ _ => trivial,
      fun _ _ _ _ _ _ => trivial⟩
  refine (ofParts_alike_forgetful source .inMemory).trace_eq
    (Step.Alike.forall₂_map Step.beside_alike steps) ⟨rfl, rfl⟩ ?_
  intro name hmem same hmem'
  rw [eq_of_mem_nameAtOpening? hunopened hempty hchange (fun _ => rfl) name hmem,
    eq_of_mem_nameAtOpening? hnever (fun _ _ _ => rfl) (fun _ _ _ _ => trivial) trivial same hmem']

/-- A service without a state file acts as one with a store in memory that is empty at first, as
long as nobody else writes into this store. -/
theorem trace_ofConfig_inMemory (host : Host (StateM σ)) (config : Config)
    (hnone : config.stateFile? = none) (world : σ) (steps : List (Step σ)) :
    (ofConfig host config).trace steps (.start world) =
      (ofParts (.ofFiles host config.catalog) .inMemory).trace (steps.map Step.beside)
        (.start (world, none)) := by
  rw [trace_inMemory, ofConfig, hnone]

end Service

end Codename.Session
