import Codename.Proofs.Files.Tree

/-!
# Files that are left alone

To make a directory changes no file, to write a file changes no other one, and after both every path
leads where it led. So a program that makes the directories it needs and writes at one path touches
the file at the end of this path and no other.

## Main definitions

* `Host.Preserves` — a file that is the same after its directory was made, and after a write failed.
* `Tree.file?` — the content of the file at a place.
* `Tree.ChangesOnly` — what a tree may become if the file of one path is changed.

## Main statements

* `Tree.changesOnly_makeDirectories`, `Tree.changesOnly_host_write` — what the operations change.
* `Tree.host_preserves` — the files of a tree that need no directory.
-/

namespace Codename.Files

/-- What can be read at the path stays when the directory of the path is made, and when the file
cannot be written. -/
structure Host.Preserves {σ : Type} (host : Host (StateM σ)) (path : String) : Prop where
  makeDirectories : ∀ directory, Path.parent? path = some directory → ∀ world,
    (host.read path (host.makeDirectories directory world).2).1.toOption =
      (host.read path world).1.toOption
  write : ∀ text error world, (host.write path text world).1 = .error error →
    (host.read path (host.write path text world).2).1.toOption = (host.read path world).1.toOption

namespace Tree

/-- The content of the file at a place. -/
def file? (tree : Tree) (place : Place) : Option ByteArray :=
  match tree.node? place with
  | some (.file content) => some content
  | _ => none

/-- The path leads where it led, if it led anywhere, and all files but the one at its end are what
they were. -/
structure ChangesOnly (path : String) (before after : Tree) : Prop where
  locate : ∀ place, before.locate path = .ok place → after.locate path = .ok place
  file? : ∀ place, after.locate path ≠ .ok place → after.file? place = before.file? place

variable {path other : String} {tree before middle after : Tree} {place start : Place}
  {node : Node} {components : List String} {content : ByteArray}

theorem ChangesOnly.refl (path : String) (tree : Tree) : tree.ChangesOnly path tree :=
  ⟨fun _ hplace => hplace, fun _ _ => rfl⟩

theorem ChangesOnly.trans (h : before.ChangesOnly path middle)
    (h' : middle.ChangesOnly path after) : before.ChangesOnly path after where
  locate place hplace := h'.locate place (h.locate place hplace)
  file? place hplace := by
    have hmiddle : middle.locate path ≠ .ok place := fun hled => hplace (h'.locate place hled)
    exact (h'.file? place hplace).trans (h.file? place hmiddle)

theorem file?_put_of_ne (hplace : tree.node? place ≠ some .directory) {there : Place}
    (hthere : there ≠ place) : (tree.put place node).file? there = tree.file? there := by
  rw [file?, node?_put (ne_nil_of_node?_ne hplace), if_neg hthere, file?]

/-! ### Directories -/

/-- A new directory stands where there was nothing, and so it takes the place of no file. -/
theorem changesOnly_put_directory (hplace : tree.node? place = none) :
    tree.ChangesOnly path (tree.put place .directory) where
  locate led hled := locate_put (by simp [hplace]) hled
  file? there _ := by
    have hfree : tree.node? place ≠ some .directory := by simp [hplace]
    by_cases hthere : there = place
    · rw [hthere, file?, node?_put (ne_nil_of_node?_ne hfree), if_pos rfl, file?, hplace]
    · exact file?_put_of_ne hfree hthere

theorem changesOnly_makeDirectory (h : tree.makeDirectory start components = .ok after) :
    tree.ChangesOnly path after := by
  rw [makeDirectory] at h
  cases hwalk : tree.walk start components with
  | error error =>
    rw [hwalk] at h
    cases h
  | ok place =>
    simp only [hwalk, bind, Except.bind] at h
    cases hplace : tree.node? place with
    | some there =>
      rw [hplace] at h
      cases h
    | none =>
      rw [hplace] at h
      cases h
      exact changesOnly_put_directory hplace

/-- Making some directories changes no file, whether it succeeds or not. -/
theorem changesOnly_makeAll (path : String) (start : Place) (components : List String)
    (tree : Tree) : tree.ChangesOnly path (makeAll start components tree).2 := by
  fun_induction makeAll start components tree with
  | case1 => exact .refl path _
  | case2 component outer tree _ made hmade => exact changesOnly_makeDirectory hmade
  | case3 component outer tree _ hmissing error stopped houter ih => rwa [houter] at ih
  | case4 component outer tree _ hmissing inside houter made hmade ih =>
    rw [houter] at ih
    exact ih.trans (changesOnly_makeDirectory hmade)
  | case5 component outer tree _ _ hmissing inside houter error hfailed ih => rwa [houter] at ih
  | case6 component outer tree => exact .refl path tree

theorem changesOnly_makeDirectories (path other : String) (tree : Tree) :
    tree.ChangesOnly path (makeDirectories other tree).2 :=
  changesOnly_makeAll path _ _ tree

/-! ### Files -/

theorem changesOnly_write (h : tree.write path content = .ok after) :
    tree.ChangesOnly path after := by
  obtain ⟨place, hlocate, hplace, -, rfl⟩ := write_eq_ok h
  have hled : (tree.put place (.file content)).locate path = .ok place :=
    locate_put hplace hlocate
  constructor
  · intro there hthere
    exact locate_put hplace hthere
  · intro there hthere
    refine file?_put_of_ne hplace ?_
    rintro rfl
    exact hthere hled

/-- A file that cannot be written stays as it is, like all others. -/
theorem changesOnly_host_write (input : ByteArray) (path text : String) (tree : Tree) :
    tree.ChangesOnly path ((host input).write path text tree).2 := by
  rw [host_write]
  cases hwrite : tree.write path text.toUTF8 with
  | ok after => exact changesOnly_write hwrite
  | error error => exact .refl path tree

/-- A tree preserves what is at a path for which no directory is made, such as `last.json`. Another
can come to lead to a file when its directory is made, such as `new/../file`. -/
theorem host_preserves (input : ByteArray)
    (h : ∀ directory, Path.parent? path = some directory → Path.components directory = []) :
    (host input).Preserves path where
  makeDirectories directory hdirectory tree := by
    have hnone : makeDirectories directory tree = (.ok (), tree) := by
      rw [makeDirectories, h directory hdirectory]
      rfl
    show ((makeDirectories directory tree).2.read path).toOption = (tree.read path).toOption
    rw [hnone]
  write text error tree hfailed := by
    rw [host_write] at hfailed ⊢
    cases hwrite : tree.write path text.toUTF8 with
    | ok after => rw [hwrite] at hfailed; cases hfailed
    | error error => rfl

end Tree

end Codename.Files
