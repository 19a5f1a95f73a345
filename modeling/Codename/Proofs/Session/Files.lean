import Codename.Proofs.Files.Documents
import Codename.Proofs.Files.Frame
import Codename.Proofs.Session.Selection

/-!
# Sessions on a file tree

A session reads its catalog and its documents, and that changes no file. All that it writes is the
entry of the selected schema, so the state file is the one file that can change; without a state
file the tree stays as it is.

## Main definitions

* `Config.Confines` — what the sessions of a configuration can make of a file tree.

## Main statements

* `SelectionStore.changesOnly_save` — what a store in a file changes.
* `Service.confines_run` — what a session that answers requests changes.
-/

namespace Codename

open Codename.Files (Tree)

/-- What the sessions of a configuration can make of a file tree: the state file can change, if
there is one, and nothing else. -/
def Config.Confines (config : Config) (before after : Tree) : Prop :=
  match config.stateFile? with
  | some path => before.ChangesOnly path after
  | none => after = before

theorem Config.Confines.refl (config : Config) (tree : Tree) : config.Confines tree tree := by
  rw [Config.Confines]
  cases config.stateFile? with
  | some path => exact .refl path tree
  | none => rfl

theorem Config.Confines.eq_of_none {config : Config} {before after : Tree}
    (h : config.Confines before after) (hnone : config.stateFile? = none) : after = before := by
  rwa [Config.Confines, hnone] at h

theorem Config.Confines.changesOnly {config : Config} {before after : Tree} {path : String}
    (h : config.Confines before after) (hfile : config.stateFile? = some path) :
    before.ChangesOnly path after := by
  rwa [Config.Confines, hfile] at h

namespace Session

variable {input : ByteArray} {config : Config} {path : String} {before tree : Tree}

theorem SelectionStore.changesOnly_save (input : ByteArray) (path : String) (entry : Catalog.Entry)
    (tree : Tree) :
    tree.ChangesOnly path ((ofFile (Tree.host input) path).save entry tree).2 := by
  have hmade : tree.ChangesOnly path (makeDirectory (Tree.host input) path tree).2 := by
    rw [makeDirectory]
    cases Path.parent? path with
    | some directory => exact Tree.changesOnly_makeDirectories path directory tree
    | none => exact .refl path tree
  rw [save_ofFile]
  dsimp only
  split
  · exact hmade
  · exact hmade.trans (Tree.changesOnly_host_write input path _ _)

namespace Service

/-- Neither the source nor the store of a configuration changes more than the state file. -/
theorem closed_confines (input : ByteArray) (config : Config) (before : Tree) :
    (ofConfig (Tree.host input) config).Closed (config.Confines before) where
  loadCatalog _ h := h
  loadDocument _ _ h := h
  load tree h := by
    rw [ofConfig]
    cases config.stateFile? with
    | some path => exact h
    | none => exact h
  save entry tree h := by
    rw [Config.Confines] at h ⊢
    rw [ofConfig]
    cases hfile : config.stateFile? with
    | some path =>
      rw [hfile] at h
      exact h.trans (SelectionStore.changesOnly_save input path entry tree)
    | none =>
      rw [hfile] at h
      exact h

/-- A session that answers requests changes no more than the state file. -/
theorem confines_run (input : ByteArray) (config : Config) (tree : Tree)
    (requests : List Request) :
    config.Confines tree
      (run (ofConfig (Tree.host input) config) (requests.map .ask) (.start tree)).world := by
  refine (closed_confines input config tree).invariant.run ?_ (Config.Confines.refl config tree)
  intro change hmem
  obtain ⟨request, -, hask⟩ := List.mem_map.1 hmem
  cases hask

theorem confines_mapping_on (input : ByteArray) (config : Config) (tree : Tree)
    (schema : Option String) :
    config.Confines tree
      (((ofConfig (Tree.host input) config).mapping schema).on (.start tree)).2.world := by
  have hrun := confines_run input config tree [.use schema .mapping]
  have hcall := Call.on_map (s := .start tree) Response.mapping
    ((ofConfig (Tree.host input) config).mapping schema)
  exact congrArg Prod.snd hcall ▸ hrun

end Service

end Session

end Codename
