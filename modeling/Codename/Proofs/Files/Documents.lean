import Codename.Mapping.File
import Codename.Proofs.Files.Tree
import Codename.Proofs.Json.Documents
import Codename.Session.Selection

/-!
# Documents in files

What is written into a file as a document is read from it again, by the same program or by the next
one, on every host that keeps its files.

## Main statements

* `Mapping.fromFile_toFile` — a mapping that was written into a file.
* `SelectionStore.save_ofFile_ok`, `SelectionStore.load_save` — an entry that a store has saved.
* `restores_documents` — every kind of document is read as it was written.
-/

namespace Codename

open Codename.Files (FileError Host Tree)

variable {σ : Type} {host : Host (StateM σ)} {path : String}

theorem Mapping.ofText_of_parse {text : String} {mapping : Mapping}
    (h : Document.reader.parse text = .ok mapping.document) : ofText text = .ok mapping := by
  rw [ofText_eq_mapError h, mapError_eq_ok]
  exact ofDocument_eq_ok_iff.2 ⟨rfl, mapping.valid⟩

/-- A mapping is given back by the file that it was written into. -/
theorem Mapping.fromFile_toFile (hkeeps : host.Keeps path) {mapping : Mapping} {world : σ}
    (hwritten : (mapping.toFile host path world).1 = .ok ()) :
    (Mapping.fromFile host path (mapping.toFile host path world).2).1 = .ok mapping := by
  have hwrite : (host.write path mapping.document.toJson.indented world).1 = .ok () :=
    mapError_eq_ok.1 hwritten
  have hread := hkeeps.write _ world hwrite
  show ofContent (host.read path (host.write path mapping.document.toJson.indented world).2).1 = _
  rw [hread, ofContent, ofText_of_parse mapping.document.reads.parse_indented]
  rfl

namespace Session.SelectionStore

variable {entry : Catalog.Entry} {world : σ}

/-- What a store in a file does first: it makes the directory of the file. -/
def makeDirectory (host : Host (StateM σ)) (path : String) (world : σ) :
    Except FileError Unit × σ :=
  match Path.parent? path with
  | some directory => host.makeDirectories directory world
  | none => (.ok (), world)

/-- A store in a file makes its directory, and then writes the entry. -/
theorem save_ofFile (host : Host (StateM σ)) (path : String) (entry : Catalog.Entry) (world : σ) :
    (ofFile host path).save entry world =
      let made := makeDirectory host path world
      let written := host.write path entry.toJson.compact made.2
      match made.1 with
      | .error error => (.error error.message, made.2)
      | .ok () => (written.1.mapError (·.message), written.2) := by
  rw [makeDirectory]
  cases hparent : Path.parent? path with
  | none =>
    simp only [ofFile, hparent]
    rfl
  | some directory =>
    rcases hmade : host.makeDirectories directory world with ⟨_ | _, made⟩
    · simp only [ofFile, hparent, bind, StateT.bind, hmade]
      rfl
    · simp only [ofFile, hparent, bind, StateT.bind, hmade]
      rfl

/-- An entry is saved in a file when it was written there. -/
theorem save_ofFile_ok (hsaved : ((ofFile host path).save entry world).1 = .ok ()) :
    ∃ made, (host.write path entry.toJson.compact made).1 = .ok () ∧
      ((ofFile host path).save entry world).2 = (host.write path entry.toJson.compact made).2 := by
  rw [save_ofFile] at hsaved ⊢
  dsimp only at hsaved ⊢
  split at hsaved
  · cases hsaved
  · exact ⟨_, mapError_eq_ok.1 hsaved, rfl⟩

/-- The text that a file holds when an entry was saved in it. -/
theorem read_save (hkeeps : host.Keeps path)
    (hsaved : ((ofFile host path).save entry world).1 = .ok ()) :
    (host.read path ((ofFile host path).save entry world).2).1 = .ok entry.toJson.compact := by
  obtain ⟨made, hwritten, hafter⟩ := save_ofFile_ok hsaved
  rw [hafter]
  exact hkeeps.write _ made hwritten

theorem readEntry_compact (path : String) (entry : Catalog.Entry) :
    readEntry path (.ok entry.toJson.compact) = .ok (some entry) := by
  rw [readEntry, readValue, entry.reads.parse_compact]
  rfl

theorem load_ofFile (host : Host (StateM σ)) (path : String) (world : σ) :
    (ofFile host path).load world =
      (readEntry path (host.read path world).1, (host.read path world).2) :=
  rfl

/-- An entry is given back by the file that it was saved in. -/
theorem load_save (hkeeps : host.Keeps path)
    (hsaved : ((ofFile host path).save entry world).1 = .ok ()) :
    ((ofFile host path).load ((ofFile host path).save entry world).2).1 = .ok (some entry) := by
  rw [load_ofFile, read_save hkeeps hsaved, readEntry_compact]

end Session.SelectionStore

/-- Every kind of document is read as it was written, both from the compact form and from the
indented form. So a mapping that was written into a file is read from it again, and an entry that
was saved is loaded again. -/
theorem restores_documents :
    Mapping.Document.reader.Restores Mapping.Document.toJson ∧
      Catalog.Entry.reader.Restores Catalog.Entry.toJson ∧
      Catalog.reader.Restores Catalog.toJson ∧
      Check.Options.reader.Restores Check.Options.toJson ∧
      Check.Report.reader.Restores Check.Report.toJson ∧
      Config.reader.Restores Config.toJson ∧
      ∀ {σ : Type} (host : Host (StateM σ)) (path : String), host.Keeps path → ∀ world,
        (∀ mapping : Mapping, (mapping.toFile host path world).1 = .ok () →
          (Mapping.fromFile host path (mapping.toFile host path world).2).1 = .ok mapping) ∧
        ∀ entry, ((Session.SelectionStore.ofFile host path).save entry world).1 = .ok () →
          ((Session.SelectionStore.ofFile host path).load
            ((Session.SelectionStore.ofFile host path).save entry world).2).1 =
              .ok (some entry) := by
  refine ⟨.of_reads Mapping.Document.reads, .of_reads Catalog.Entry.reads,
    .of_reads Catalog.reads, .of_reads Check.Options.reads,
    .of_reads Check.Report.reads, .of_reads Config.reads, ?_⟩
  intro σ host path hkeeps world
  exact ⟨fun mapping hwritten => Mapping.fromFile_toFile hkeeps hwritten,
    fun entry hsaved => Session.SelectionStore.load_save hkeeps hsaved⟩

/-- A mapping and an entry, whose name takes escapes, are written into a tree without any files. -/
theorem restores_documents_shop :
    let host := Tree.host .empty
    let empty : Tree := ⟨[], []⟩
    let store := Session.SelectionStore.ofFile host "größe.json"
    let entry : Catalog.Entry := ⟨"\"größe\"\n", "a\\b.json", false⟩
    host.Keeps "größe.json" ∧
      (Mapping.shop.toFile host "größe.json" empty).1 = .ok () ∧
      (Mapping.fromFile host "größe.json" (Mapping.shop.toFile host "größe.json" empty).2).1 =
        .ok Mapping.shop ∧
      (store.save entry empty).1 = .ok () ∧
      (store.load (store.save entry empty).2).1 = .ok (some entry) := by
  intro host empty store entry
  have hkeeps : host.Keeps "größe.json" := Tree.host_keeps .empty "größe.json"
  have hwritten : (Mapping.shop.toFile host "größe.json" empty).1 = .ok () := by decide +kernel
  have hsaved : (store.save entry empty).1 = .ok () := by decide +kernel
  obtain ⟨-, -, -, -, -, -, hfiles⟩ := restores_documents
  obtain ⟨hmapping, hentry⟩ := hfiles host "größe.json" hkeeps empty
  exact ⟨hkeeps, hwritten, hmapping _ hwritten, hsaved, hentry _ hsaved⟩

end Codename
