import Codename.Proofs.Session.Alike
import Codename.Proofs.Session.Selection

/-!
# Stores do not disturb sessions

A selection store has only one way to reach what a session does: the name of the schema that it
gives when the catalog comes to be there. Two sessions with the same source, whose stores share
nothing with it, are the same for all that can be seen of them if their stores give the same name
then, no matter what else the stores hold and whether they can be read or written at any other time.

## Main definitions

* `Service.ofParts` — a service whose source and store share nothing.

## Main statements

* `Service.trace_ofParts` — what is seen of sessions that only differ in their stores.
-/

namespace Codename.Session

variable {σ τ ρ : Type}

namespace Service

/-- The service of a source and a store that share nothing. -/
def ofParts (source : Source (StateM σ)) (selections : SelectionStore (StateM τ)) :
    Service (StateM (σ × τ)) where
  source :=
    { loadCatalog := fun world =>
        let loaded := source.loadCatalog world.1
        (loaded.1, (loaded.2, world.2))
      loadDocument := fun entry world =>
        let loaded := source.loadDocument entry world.1
        (loaded.1, (loaded.2, world.2)) }
  selections :=
    { load := fun world =>
        let loaded := selections.load world.2
        (loaded.1, (world.1, loaded.2))
      save := fun entry world =>
        let saved := selections.save entry world.2
        (saved.1, (world.1, saved.2)) }

/-- Services with the same source act alike in worlds in which it is in the same state. -/
theorem ofParts_alike (source : Source (StateM σ)) (first : SelectionStore (StateM τ))
    (second : SelectionStore (StateM ρ)) :
    (ofParts source first).Alike (ofParts source second) fun here there => here.1 = there.1 where
  loadCatalog {world other} hsame := by
    show (source.loadCatalog world.1).1 = (source.loadCatalog other.1).1 ∧
      (source.loadCatalog world.1).2 = (source.loadCatalog other.1).2
    rw [hsame]
    exact ⟨rfl, rfl⟩
  loadDocument entry {world other} hsame := by
    show (source.loadDocument entry world.1).1 = (source.loadDocument entry other.1).1 ∧
      (source.loadDocument entry world.1).2 = (source.loadDocument entry other.1).2
    rw [hsame]
    exact ⟨rfl, rfl⟩
  load hsame := hsame
  save _ _ _ hsame := hsame

/-- Two sessions with the same source, asked the same while their stores change in any way, give the
same answers, are in the same states and load the same at every step, if their stores give the same
name when the catalog comes to be there. A store that cannot be read and one that holds nothing both
give none. -/
theorem trace_ofParts (source : Source (StateM σ)) (first : SelectionStore (StateM τ))
    (second : SelectionStore (StateM ρ)) (world : σ) (kept : τ) (other : ρ)
    {steps : List (Step (σ × τ))} {others : List (Step (σ × ρ))}
    (hsteps : List.Forall₂ (Step.Alike fun here there => here.1 = there.1) steps others)
    (hname : ∀ name ∈ (ofParts source first).nameAtOpening? steps (.start (world, kept)),
      ∀ same ∈ (ofParts source second).nameAtOpening? others (.start (world, other)),
        name = same) :
    (ofParts source first).trace steps (.start (world, kept)) =
      (ofParts source second).trace others (.start (world, other)) :=
  (ofParts_alike source first second).trace_eq hsteps ⟨rfl, rfl⟩ hname

end Service

/-- The store that holds a schema with another locator cannot be written, and after the catalog is
there it cannot be read either. The other one can. -/
theorem Service.trace_ofParts_halfStocked :
    let service := ofParts Shelf.source Shelf.selections
    let held : Shelf := ⟨none, ∅, some ⟨"gone", "elsewhere.json", true⟩, false, true, 0, 0⟩
    let other : Shelf := ⟨none, ∅, some ⟨"gone", "gone.json", false⟩, false, false, 0, 0⟩
    let asked : List (Step (Shelf × Shelf)) :=
      [.ask (.use none .mapping), .ask (.select "crm"), .ask .catalog]
    let lock : Shelf × Shelf → Shelf × Shelf := fun world =>
      (world.1, { world.2 with failsToLoad := true })
    let steps := .ask .catalog :: .change lock :: asked
    let others := .ask .catalog :: .change id :: asked
    List.Forall₂ (Step.Alike fun here there => here.1 = there.1) steps others ∧
      service.nameAtOpening? steps (.start (Shelf.halfStocked, held)) = some (some "gone") ∧
      service.nameAtOpening? others (.start (Shelf.halfStocked, other)) = some (some "gone") ∧
      (service.run steps (.start (Shelf.halfStocked, held))).world.2.remembered? =
        some ⟨"gone", "elsewhere.json", true⟩ ∧
      (service.run others (.start (Shelf.halfStocked, other))).world.2.remembered? =
        some ⟨"crm", "crm.json", false⟩ ∧
      service.trace steps (.start (Shelf.halfStocked, held)) =
        service.trace others (.start (Shelf.halfStocked, other)) := by
  intro service held other asked lock steps others
  have hsteps : List.Forall₂ (Step.Alike fun here there : Shelf × Shelf => here.1 = there.1) steps
      others := by
    refine .cons (.ask _) (.cons (.change fun _ _ h => h) ?_)
    exact .cons (.ask _) (.cons (.ask _) (.cons (.ask _) .nil))
  have hname : service.nameAtOpening? steps (.start (Shelf.halfStocked, held)) =
      some (some "gone") := by decide +kernel
  have hother : service.nameAtOpening? others (.start (Shelf.halfStocked, other)) =
      some (some "gone") := by decide +kernel
  refine ⟨hsteps, hname, hother, by decide +kernel, by decide +kernel, ?_⟩
  refine trace_ofParts Shelf.source Shelf.selections Shelf.selections Shelf.halfStocked held other
    hsteps fun name hmem same hmem' => ?_
  rw [hname] at hmem
  rw [hother] at hmem'
  exact Option.some.inj (hmem.symm.trans hmem')

end Codename.Session
