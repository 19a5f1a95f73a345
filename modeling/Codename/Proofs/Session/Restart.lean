import Codename.Proofs.Files.Documents
import Codename.Proofs.Session.Alike
import Codename.Proofs.Session.Selected

/-!
# The selection after a restart

A service whose configuration names a state file remembers its selection there. In the course of a
session the selected schema is always the one that was saved last. So if this could be saved, and
nobody else writes the file, the file holds its entry when the session ends, and the next session
reads the entry when it loads its catalog, in which it looks for a schema of the same name.

## Main definitions

* `Noted`, `Service.noted`, `Service.saves` — the saves of a session, with their answers.
* `Situation.Filed` — the selected schema was saved last, and is in the file if that went well.

## Main statements

* `Service.run_noted` — to note the saves changes nothing.
* `Service.invariant_filed` — the state file in the course of a session.
* `Service.selected?_restart` — what the next session selects.
-/

namespace Codename.Session

open Codename.Files (Host Tree)

variable {σ : Type}

/-! ### Saves -/

/-- A world with the saves that were made in it, each with its answer. -/
structure Noted (σ : Type) where
  world : σ
  saves : List (Catalog.Entry × Except String Unit)

namespace Service

/-- The service with its saves noted. -/
def noted (service : Service (StateM σ)) : Service (StateM (Noted σ)) where
  source :=
    { loadCatalog := fun note =>
        let loaded := service.source.loadCatalog note.world
        (loaded.1, ⟨loaded.2, note.saves⟩)
      loadDocument := fun entry note =>
        let loaded := service.source.loadDocument entry note.world
        (loaded.1, ⟨loaded.2, note.saves⟩) }
  selections :=
    { load := fun note =>
        let loaded := service.selections.load note.world
        (loaded.1, ⟨loaded.2, note.saves⟩)
      save := fun entry note =>
        let saved := service.selections.save entry note.world
        (saved.1, ⟨saved.2, note.saves ++ [(entry, saved.1)]⟩) }

end Service

/-- The same step where saves are noted. -/
def Step.noted : Step σ → Step (Noted σ)
  | .ask request => .ask request
  | .change next => .change fun note => { note with world := next note.world }

theorem Step.noted_alike (step : Step σ) :
    Step.Alike (fun (note : Noted σ) world => note.world = world) step.noted step := by
  cases step with
  | ask request => exact .ask request
  | change next => exact .change fun _ _ hsame => congrArg next hsame

/-- A situation with the saves that were made so far. -/
def Situation.noting (s : Situation σ) (saves : List (Catalog.Entry × Except String Unit)) :
    Situation (Noted σ) :=
  ⟨s.state, ⟨s.world, saves⟩⟩

namespace Service

/-- The saves that some steps lead to, one after another. -/
def saves (service : Service (StateM σ)) (steps : List (Step σ)) (s : Situation σ) :
    List (Catalog.Entry × Except String Unit) :=
  (service.noted.run (steps.map Step.noted) (s.noting [])).world.saves

theorem noted_alike (service : Service (StateM σ)) :
    service.noted.Alike service fun note world => note.world = world where
  loadCatalog {note world} hsame := by
    subst hsame
    exact ⟨rfl, rfl⟩
  loadDocument entry {note world} hsame := by
    subst hsame
    exact ⟨rfl, rfl⟩
  load {note world} hsame := by
    subst hsame
    rfl
  save entry {note world} hsame := by
    subst hsame
    rfl

/-- To note the saves changes nothing. -/
theorem run_noted (service : Service (StateM σ)) (steps : List (Step σ)) (s : Situation σ) :
    service.noted.run (steps.map Step.noted) (s.noting []) =
      (service.run steps s).noting (service.saves steps s) := by
  have hs : Situation.Alike (fun (note : Noted σ) world => note.world = world) (s.noting []) s :=
    ⟨rfl, rfl⟩
  have hname : ∀ (s : Situation (Noted σ)) (t : Situation σ),
      s.Alike (fun note world => note.world = world) t →
        service.noted.storedName s = service.storedName t := by
    rintro s t ⟨-, hworld⟩
    have hload := congrArg (fun world => rememberedName
      (service.selections.load (service.source.loadCatalog world).2).1) hworld
    exact hload
  obtain ⟨hstate, hworld⟩ :=
    (noted_alike service).run (Step.Alike.forall₂_map Step.noted_alike steps) hs hname
  show _ = Situation.mk (service.run steps s).state
    (Noted.mk (service.run steps s).world (service.saves steps s))
  rw [← hstate, ← hworld]
  rfl

end Service

/-! ### The state file -/

/-- The selected schema is the one that was saved last, and the file holds its entry if it could be
saved. -/
structure Situation.Filed (host : Host (StateM σ)) (path : String) (s : Situation (Noted σ)) :
    Prop where
  last : s.world.saves.getLast?.map Prod.fst = s.state.selected?
  content : ∀ entry, s.world.saves.getLast? = some (entry, .ok ()) →
    (host.read path s.world.world).1 = .ok entry.toJson.compact

namespace Service

variable {host : Host (StateM σ)} {path : String} {source : Source (StateM σ)}

/-- A schema that was selected was saved last. -/
theorem filed_selecting (hkeeps : host.Keeps path) (source : Source (StateM σ))
    (s : Situation (Noted σ)) (entry : Catalog.Entry) :
    (s.selecting (noted ⟨source, .ofFile host path⟩) entry).Filed host path where
  last := by
    show (s.world.saves ++ [(entry, _)]).getLast?.map Prod.fst = some entry
    rw [List.getLast?_concat]
    rfl
  content other hlast := by
    change (s.world.saves ++ [(entry, _)]).getLast? = _ at hlast
    rw [List.getLast?_concat, Option.some.injEq, Prod.mk.injEq] at hlast
    obtain ⟨rfl, hsaved⟩ := hlast
    exact SelectionStore.read_save hkeeps hsaved

/-- Whatever a session does, the selected schema is the one that was saved last, and the file holds
its entry if it could be saved. -/
theorem invariant_filed (hkeeps : host.Keeps path)
    (hspares : source.Spares fun world => (host.read path world).1) :
    (noted ⟨source, .ofFile host path⟩).Invariant (Situation.Filed host path) where
  asking s h :=
    ⟨h.last, fun entry hlast => (hspares.loadCatalog s.world.world).trans (h.content entry hlast)⟩
  fetching s entry h :=
    ⟨h.last, fun other hlast =>
      (hspares.loadDocument entry s.world.world).trans (h.content other hlast)⟩
  keeping s name mapping h := ⟨h.last, h.content⟩
  selecting s catalog entry _ _ _ := filed_selecting hkeeps source s entry
  opening s catalog h _ := by
    let service := noted ⟨source, .ofFile host path⟩
    cases hinitial : catalog.initial? (rememberedName (service.selections.load s.world).1) with
    | none =>
      rw [Situation.opening_of_initial?_eq_none hinitial]
      exact ⟨h.last, fun entry hlast =>
        (hkeeps.read path s.world.world).trans (h.content entry hlast)⟩
    | some entry =>
      rw [Situation.opening_of_initial?_eq_some hinitial]
      obtain ⟨hlast, hcontent⟩ := filed_selecting hkeeps source
        ⟨s.state, (service.selections.load s.world).2⟩ entry
      exact ⟨hlast, hcontent⟩

/-- What the source leaves alone stays what it is until the catalog is there. -/
theorem invariant_unopened {ρ : Type} {part : σ → ρ} {service : Service (StateM σ)}
    (hspares : service.source.Spares part) (value : ρ) :
    service.Invariant fun s => s.state.catalog? = none → part s.world = value where
  asking s h hnone := (hspares.loadCatalog s.world).trans (h hnone)
  fetching s entry h hnone := (hspares.loadDocument entry s.world).trans (h hnone)
  keeping _ _ _ h := h
  opening _ _ _ _ hnone := nomatch hnone
  selecting _ _ _ _ hcatalog _ hnone := nomatch hnone.symm.trans hcatalog

theorem ofFiles_spares (hkeeps : host.Keeps path) (other : String) :
    (Source.ofFiles host other).Spares fun world => (host.read path world).1 where
  loadCatalog world := hkeeps.read other world
  loadDocument entry world := hkeeps.read (Path.resolve other entry.locator) world

theorem ofConfig_of_some {config : Config} (hfile : config.stateFile? = some path) :
    ofConfig host config = ⟨.ofFiles host config.catalog, .ofFile host path⟩ := by
  rw [ofConfig, hfile]

/-- The file holds the entry of the selected schema when a session ends whose last save went
well. -/
theorem read_run (hkeeps : host.Keeps path)
    (hspares : source.Spares fun world => (host.read path world).1) (world : σ)
    {steps : List (Step σ)} (hchange : ∀ change, .change change ∈ steps → ∀ world,
      (host.read path (change world)).1 = (host.read path world).1) {entry : Catalog.Entry}
    (hselected : (run ⟨source, .ofFile host path⟩ steps (.start world)).state.selected? =
      some entry)
    (hsaved : (saves ⟨source, .ofFile host path⟩ steps (.start world)).getLast?.map Prod.snd =
      some (.ok ())) :
    (host.read path (run ⟨source, .ofFile host path⟩ steps (.start world)).world).1 =
      .ok entry.toJson.compact := by
  have hstart : (Situation.noting (.start world) []).Filed host path := ⟨rfl, nofun⟩
  have hkept : ∀ change, .change change ∈ steps.map Step.noted → ∀ s : Situation (Noted σ),
      s.Filed host path → Situation.Filed host path ⟨s.state, change s.world⟩ := by
    intro change hmem s hs
    obtain ⟨step, hstep, hnoted⟩ := List.mem_map.1 hmem
    cases step with
    | ask request => cases hnoted
    | change next =>
      cases hnoted
      exact ⟨hs.last, fun entry hlast =>
        (hchange next hstep s.world.world).trans (hs.content entry hlast)⟩
  have hfiled := (invariant_filed hkeeps hspares).run hkept hstart
  rw [run_noted] at hfiled
  obtain ⟨⟨last, answer⟩, hlast, rfl⟩ := Option.map_eq_some_iff.1 hsaved
  have hsame : some last = some entry :=
    ((congrArg (Option.map Prod.fst) hlast).symm.trans hfiled.last).trans hselected
  obtain rfl : last = entry := Option.some.inj hsame
  exact hfiled.content last hlast

/-- A session whose store is a file with an entry selects a schema by its name when it loads the
catalog. -/
theorem selected?_catalog_on {s : Situation σ} {entry : Catalog.Entry} {catalog : Catalog}
    (hread : (host.read path (source.loadCatalog s.world).2).1 = .ok entry.toJson.compact)
    (hmissing : s.state.catalog? = none) (hnone : s.state.selected? = none)
    (hcatalog : ((Service.mk source (.ofFile host path)).catalog.on s).1 = .ok catalog) :
    ((Service.mk source (.ofFile host path)).catalog.on s).2.state.selected? =
      catalog.initial? (some entry.name) := by
  let service : Service (StateM σ) := ⟨source, .ofFile host path⟩
  have hname : rememberedName (service.selections.load (s.asking service).world).1 =
      some entry.name := by
    show rememberedName (SelectionStore.readEntry path
      (host.read path (source.loadCatalog s.world).2).1) = _
    rw [hread, SelectionStore.readEntry_compact]
    rfl
  obtain ⟨other, hthere, -⟩ | ⟨-, problem, hon⟩ | ⟨-, loaded, hon⟩ := catalog_on_moves service s
  · rw [hmissing] at hthere
    cases hthere
  · rw [hon] at hcatalog
    cases hcatalog
  · rw [hon] at hcatalog ⊢
    cases hcatalog
    cases hinitial : catalog.initial? (some entry.name) with
    | none =>
      rw [Situation.opening_of_initial?_eq_none (hname ▸ hinitial)]
      exact hnone
    | some first =>
      rw [Situation.opening_of_initial?_eq_some (hname ▸ hinitial)]

/-- The selection survives a restart. A session with a state file that nobody else writes, whose
last save went well, is followed by another one with the same configuration. When this one has its
catalog loaded, it selects the first schema that is called like the one that was selected, or else
the first that is marked as the default, or else the first one, if there is any. -/
theorem selected?_restart (host : Host (StateM σ)) (config : Config) {path : String}
    (hfile : config.stateFile? = some path) (hkeeps : host.Keeps path) (world : σ)
    (earlier later : List (Step σ))
    (hchange : ∀ change, .change change ∈ earlier ++ later → ∀ world,
      (host.read path (change world)).1 = (host.read path world).1) (entry : Catalog.Entry)
    (catalog : Catalog) :
    let service := ofConfig host config
    let past := service.run earlier (.start world)
    let again := service.run later (.start past.world)
    past.state.selected? = some entry →
      (service.saves earlier (.start world)).getLast?.map Prod.snd = some (.ok ()) →
        again.state.catalog? = none → (service.catalog.on again).1 = .ok catalog →
          (service.catalog.on again).2.state.selected? =
            (catalog.entries.find? (·.name == entry.name)).or
              ((catalog.entries.find? (·.isDefault)).or catalog.entries.head?) := by
  intro service past again hselected hsaved hmissing hcatalog
  have hservice : service = ⟨.ofFiles host config.catalog, .ofFile host path⟩ :=
    ofConfig_of_some hfile
  clear_value service
  subst hservice
  have hspares := ofFiles_spares hkeeps config.catalog
  have hpast : (host.read path past.world).1 = .ok entry.toJson.compact :=
    read_run hkeeps hspares world
      (fun change hmem => hchange change (List.mem_append_left _ hmem)) hselected hsaved
  -- nothing is saved before the catalog is there
  have hagain : (host.read path again.world).1 = .ok entry.toJson.compact := by
    refine (invariant_unopened hspares _).run ?_ (fun _ => hpast) hmissing
    intro change hmem s hs hnone
    exact (hchange change (List.mem_append_right _ hmem) s.world).trans (hs hnone)
  -- a schema is selected only if there is a catalog, and then one of its schemas
  have hnone : again.state.selected? = none := by
    cases hselected : again.state.selected? with
    | none => rfl
    | some other =>
      obtain ⟨listed, hlisted, -⟩ := chosen_run _ later past.world other hselected
      cases hmissing.symm.trans hlisted
  have hread := (hspares.loadCatalog again.world).trans hagain
  exact selected?_catalog_on hread hmissing hnone hcatalog

/-- A tree with a catalog of two schemas and the document of one of them. -/
def stocked : Tree where
  nodes := [
    (["catalog.json"], .file "[[\"crm\", \"crm.json\"], [\"größe\", \"größe.json\"]]".toUTF8),
    (["größe.json"], .file "[]".toUTF8)]
  current := []

/-- A tree with another catalog, and with a state file. -/
def restocked : Tree where
  nodes := [
    (["catalog.json"], .file "[[\"new\", \"new.json\", true], [\"größe\", \"moved.json\"]]".toUTF8),
    (["state"], .directory),
    (["state", "last.json"],
      .file (Catalog.Entry.toJson ⟨"größe", "größe.json", false⟩).compact.toUTF8)]
  current := []

/-- All files are exchanged, if the state file is the same. -/
def restock (tree : Tree) : Tree :=
  if tree.read "state/last.json" = restocked.read "state/last.json" then restocked else tree

theorem read_restock (tree : Tree) :
    (restock tree).read "state/last.json" = tree.read "state/last.json" := by
  rw [restock]
  split
  · next hsame => exact hsame.symm
  · rfl

/-- The selected schema is listed with another locator after the restart, behind one that is marked
as the default. -/
theorem selected?_restart_stocked :
    let host := Tree.host .empty
    let config : Config := ⟨"catalog.json", some "state/last.json"⟩
    let service := ofConfig host config
    let earlier : List (Step Tree) := [.ask (.select "größe")]
    let later : List (Step Tree) := [.change restock]
    let past := service.run earlier (.start stocked)
    let again := service.run later (.start past.world)
    host.Keeps "state/last.json" ∧
      (∀ change, .change change ∈ earlier ++ later → ∀ tree : Tree,
        (host.read "state/last.json" (change tree)).1 =
          (host.read "state/last.json" tree).1) ∧
      past.state.selected? = some ⟨"größe", "größe.json", false⟩ ∧
      (service.saves earlier (.start stocked)).getLast?.map Prod.snd = some (.ok ()) ∧
      again.state.catalog? = none ∧
      (service.catalog.on again).1 =
        .ok ⟨[⟨"new", "new.json", true⟩, ⟨"größe", "moved.json", false⟩]⟩ ∧
      (service.catalog.on again).2.state.selected? = some ⟨"größe", "moved.json", false⟩ := by
  intro host config service earlier later past again
  have hkeeps : host.Keeps "state/last.json" := Tree.host_keeps .empty "state/last.json"
  have hchange : ∀ change, .change change ∈ earlier ++ later → ∀ tree : Tree,
      (host.read "state/last.json" (change tree)).1 = (host.read "state/last.json" tree).1 := by
    intro change hmem tree
    simp only [earlier, later, List.cons_append, List.nil_append, List.mem_cons,
      Step.change.injEq, reduceCtorEq, List.not_mem_nil, or_false, false_or] at hmem
    subst hmem
    exact read_restock tree
  have hselected : past.state.selected? = some ⟨"größe", "größe.json", false⟩ := by
    decide +kernel
  have hsaved : (service.saves earlier (.start stocked)).getLast?.map Prod.snd = some (.ok ()) := by
    decide +kernel
  have hcatalog : (service.catalog.on again).1 =
      .ok ⟨[⟨"new", "new.json", true⟩, ⟨"größe", "moved.json", false⟩]⟩ := by decide +kernel
  have hmissing : again.state.catalog? = none := rfl
  have hrestart := selected?_restart host config rfl hkeeps stocked earlier later hchange _ _
    hselected hsaved hmissing hcatalog
  exact ⟨hkeeps, hchange, hselected, hsaved, hmissing, hcatalog, hrestart.trans (by decide)⟩

end Service

end Codename.Session
