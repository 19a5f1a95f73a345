import Codename.Files.Tree

/-!
# Files that are kept

What a program relies on in a host is that a file holds what was written into it last. A file tree
does so at every path: to write a file changes nothing on the way to it, since all places on the way
are directories.

## Main definitions

* `Host.Keeps` — a file that is changed only when it is written, and then holds the written text.

## Main statements

* `Tree.read_write` — what a tree holds where a file was written.
* `Tree.host_keeps` — a tree as a host keeps all files.
-/

namespace Codename.Files

/-- A file that stays what it is while files are read, and that holds the text that was written into
it. -/
structure Host.Keeps {σ : Type} (host : Host (StateM σ)) (path : String) : Prop where
  read : ∀ other world,
    (host.read path (host.read other world).2).1 = (host.read path world).1
  write : ∀ text world, (host.write path text world).1 = .ok () →
    (host.read path (host.write path text world).2).1 = .ok text

namespace Tree

variable {tree after : Tree} {place start other : Place} {node : Node} {components : List String}
  {path : String} {content : ByteArray}

theorem node?_put (hplace : place ≠ []) (other : Place) :
    (tree.put place node).node? other = if other = place then some node else tree.node? other := by
  by_cases hroot : other = []
  · rw [if_neg (hroot ▸ hplace.symm), node?, node?, if_pos hroot, if_pos hroot]
  · rw [node?, node?, if_neg hroot, if_neg hroot, put]
    by_cases hother : other = place
    · simp [hother]
    · have hne : ((place, node).1 == other) = false := by simpa using Ne.symm hother
      rw [if_neg hother, List.find?_cons_of_neg (by simp [hne]), List.find?_filter]
      congr 2
      funext stored
      by_cases hstored : stored.1 = other
      · simp [hstored, hother]
      · simp [hstored]

/-- A place that is no directory is not the root. -/
theorem ne_nil_of_node?_ne (hplace : tree.node? place ≠ some .directory) : place ≠ [] := by
  rintro rfl
  exact hplace rfl

/-- A walk does not notice what is put at a place that is no directory. -/
theorem walk_put (hplace : tree.node? place ≠ some .directory)
    (hwalk : tree.walk start components = .ok other) :
    (tree.put place node).walk start components = .ok other := by
  have hroot : place ≠ [] := ne_nil_of_node?_ne hplace
  induction components generalizing start with
  | nil => exact hwalk
  | cons component rest ih =>
    rw [walk] at hwalk ⊢
    cases hnode : tree.node? start with
    | none =>
      rw [hnode] at hwalk
      cases hwalk
    | some there =>
      rw [hnode] at hwalk
      cases there with
      | file content => cases hwalk
      | directory =>
        -- the walk is in a directory, and so it is not at the place
        have hstart : start ≠ place := by
          rintro rfl
          exact hplace hnode
        rw [node?_put hroot, if_neg hstart, hnode]
        exact ih hwalk

theorem locate_put (hplace : tree.node? place ≠ some .directory)
    (hlocate : tree.locate path = .ok other) : (tree.put place node).locate path = .ok other := by
  have horigin : (tree.put place node).origin path = tree.origin path := rfl
  rw [locate] at hlocate ⊢
  cases hempty : path.isEmpty with
  | true => simp [hempty] at hlocate
  | false =>
    simp only [hempty, Bool.false_eq_true, if_false] at hlocate ⊢
    rw [horigin]
    exact walk_put hplace hlocate

theorem write_of_locate (h : tree.locate path = .ok place) :
    tree.write path content =
      match tree.node? place with
      | some .directory => .error .isDirectory
      | _ =>
        if endsWithSlash path then .error .isDirectory
        else .ok (tree.put place (.file content)) := by
  rw [write, h]
  rfl

/-- To write a file is to put it at the place of its path, where no directory is. -/
theorem write_eq_ok (h : tree.write path content = .ok after) :
    ∃ place, tree.locate path = .ok place ∧ tree.node? place ≠ some .directory ∧
      endsWithSlash path = false ∧ after = tree.put place (.file content) := by
  cases hlocate : tree.locate path with
  | error error =>
    rw [write, hlocate] at h
    cases h
  | ok place =>
    rw [write_of_locate hlocate] at h
    split at h
    · cases h
    · next hnode =>
      cases hslash : endsWithSlash path with
      | true => simp [hslash] at h
      | false =>
        simp only [hslash, Bool.false_eq_true, if_false] at h
        cases h
        exact ⟨place, rfl, hnode, rfl, rfl⟩

/-- A file that was written is there. -/
theorem lookUp_write (h : tree.write path content = .ok after) :
    after.lookUp path = .ok (.file content) := by
  obtain ⟨place, hlocate, hplace, hslash, rfl⟩ := write_eq_ok h
  have hroot : place ≠ [] := ne_nil_of_node?_ne hplace
  have hthere : (tree.put place (.file content)).node? place = some (.file content) := by
    rw [node?_put hroot, if_pos rfl]
  rw [lookUp, locate_put hplace hlocate]
  simp only [bind, Except.bind, hthere, hslash]
  rfl

theorem fromUTF8?_toUTF8 (text : String) : String.fromUTF8? text.toUTF8 = some text := by
  have hvalid : text.toUTF8.IsValidUTF8 := text.isValidUTF8
  rw [String.fromUTF8?, dif_pos hvalid]
  rfl

/-- A text that was written is read again. -/
theorem read_write {text : String} (h : tree.write path text.toUTF8 = .ok after) :
    after.read path = .ok text := by
  rw [read, lookUp_write h]
  simp only [bind, Except.bind, fromUTF8?_toUTF8]
  rfl

theorem host_write (input : ByteArray) (path text : String) (tree : Tree) :
    (host input).write path text tree =
      match tree.write path text.toUTF8 with
      | .ok after => (.ok (), after)
      | .error error => (.error error, tree) := by
  simp only [host, bind, StateT.bind, get, getThe, MonadStateOf.get, StateT.get, pure]
  cases tree.write path text.toUTF8 with
  | ok after => rfl
  | error error => rfl

/-- A tree keeps every file. -/
theorem host_keeps (input : ByteArray) (path : String) : (host input).Keeps path where
  read _ _ := rfl
  write text tree hwritten := by
    rw [host_write] at hwritten ⊢
    cases hwrite : tree.write path text.toUTF8 with
    | error error =>
      rw [hwrite] at hwritten
      cases hwritten
    | ok after => exact read_write hwrite

end Tree

end Codename.Files
