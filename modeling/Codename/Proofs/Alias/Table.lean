import Codename.Alias.Binding
import Codename.Proofs.Alias.Scan
import Codename.Proofs.Mapping.Names
import Mathlib.Data.Finset.Card

/-!
# The names of an alias table

Every alias and every table of a binding is a name of the alias table. A name that is not a word is
the name of a temporary table, and stands for itself. What a name stands for is a word of the text
or a temporary table, and it is what the last binding with this name says, be it as an alias or as
a table. The names keep the order in which the text has them first.

## Main definitions

* `Binding.names`, `boundNames` — the alias and the table of a binding, and of all bindings of a
  text.

## Main statements

* `Table.keys_resolve`, `Table.mem_keys_resolve` — what the bindings name is in the table.
* `Table.forall_entries_resolve` — what holds of the bindings holds of the entries.
* `Table.isIdentifier_or_eq` — a name is an identifier or stands for itself.
* `Table.hasWord_of_mem_entries` — what a name stands for is a word of the text.
* `Table.get?_resolve` — what a name stands for by the last binding that has it.
* `Table.resolve_lastBinding` — the names in their order and what they stand for.
-/

namespace Codename.Alias

open Codename.Mapping (isIdentifier)
open Codename.Text (hasWord isCut_segments isIdentifier_iff)

/-- The alias of a binding, and behind it the table. -/
def Binding.names (binding : Binding) : List String :=
  [binding.name, binding.table]

/-- The names of the bindings of a text, each as often as a binding has it. -/
def boundNames (text : String) : List String :=
  (bindings text).flatMap Binding.names

/-- The entries that a binding makes: its alias, and its table under its own name. -/
def Binding.entries (binding : Binding) : List (String × String) :=
  binding.names.map fun name => (name, binding.table)

namespace Table

variable {table : Table} {text key name : String}

/-! ### Names in their order -/

/-- The table of a text is filled with the entries of one binding after another. -/
theorem resolve_eq_ofList (text : String) :
    resolve text = KeyedList.ofList ((bindings text).flatMap Binding.entries) := by
  rw [KeyedList.ofList, List.foldl_flatMap]
  rfl

/-- The names come in the order in which the bindings have them first. -/
theorem keys_resolve (text : String) :
    (resolve text).keys = (boundNames text).eraseDups := by
  have hnames : ∀ binding : Binding, binding.entries.map Prod.fst = binding.names := by
    intro binding
    rfl
  rw [resolve_eq_ofList, KeyedList.keys_ofList, List.map_flatMap, boundNames]
  simp only [hnames]

theorem mem_boundNames : key ∈ boundNames text ↔ ∃ binding ∈ bindings text, key ∈ binding.names :=
  List.mem_flatMap

theorem mem_keys_resolve :
    key ∈ (resolve text).keys ↔
      ∃ binding ∈ bindings text, key = binding.name ∨ key = binding.table := by
  rw [keys_resolve, List.mem_eraseDups, mem_boundNames]
  simp [Binding.names]

/-! ### Entries -/

/-- What holds of each binding, read as an alias and as a table under its own name, holds of the
entries of the table. -/
theorem forall_entries_resolve {P : String → String → Prop}
    (h : ∀ binding ∈ bindings text,
      P binding.name binding.table ∧ P binding.table binding.table) :
    ∀ entry ∈ (resolve text).entries, P entry.1 entry.2 := by
  have hempty : ∀ entry ∈ (∅ : Table).entries, P entry.1 entry.2 := by simp
  refine List.foldlRecOn (motive := fun table => ∀ entry ∈ table.entries, P entry.1 entry.2)
    (bindings text) bind hempty ?_
  intro table htable binding hbinding
  obtain ⟨hname, hself⟩ := h binding hbinding
  -- the table is entered last, and so it comes first
  rintro ⟨key, value⟩ hentry
  rcases KeyedList.mem_entries_insert hentry with ⟨rfl, rfl⟩ | hentry
  · exact hself
  rcases KeyedList.mem_entries_insert hentry with ⟨rfl, rfl⟩ | hentry
  · exact hname
  · exact htable _ hentry

/-- A name of an alias table is a word, or stands for itself. -/
theorem isIdentifier_or_eq (h : (key, name) ∈ (resolve text).entries) :
    isIdentifier key = true ∨ name = key := by
  refine forall_entries_resolve (P := fun key name => isIdentifier key = true ∨ name = key) ?_ _ h
  intro binding hbinding
  exact ⟨.inl ((isCut_segments _).valid _ (exists_word_of_mem_bindings hbinding)), .inr rfl⟩

/-- A name of an alias table stands for a word of the text or for a temporary table. -/
theorem hasWord_of_mem_entries (h : (key, name) ∈ (resolve text).entries)
    (hidentifier : isIdentifier name = true) : hasWord text name = true := by
  refine forall_entries_resolve
    (P := fun _ name => isIdentifier name = true → hasWord text name = true) ?_ _ h hidentifier
  intro binding hbinding
  have htable : isIdentifier binding.table = true → hasWord text binding.table = true := by
    intro hidentifier
    rw [hasWord, List.contains_iff_mem]
    exact word_table_of_mem_bindings hbinding hidentifier
  exact ⟨htable, htable⟩

/-! ### The last binding of a name -/

/-- A binding says what its names stand for, and nothing of other names. -/
theorem get?_bind (table : Table) (binding : Binding) (key : String) :
    (table.bind binding).get? key =
      if key ∈ binding.names then some binding.table else table.get? key := by
  rw [bind, KeyedList.get?_insert, KeyedList.get?_insert]
  simp only [Binding.names, List.mem_cons, List.not_mem_nil, or_false, eq_comm (a := key)]
  by_cases htable : binding.table = key
  · simp [htable]
  · simp [htable]

theorem get?_foldl_bind_of_not_mem {found : List Binding}
    (h : ∀ binding ∈ found, key ∉ binding.names) :
    (found.foldl bind table).get? key = table.get? key := by
  refine List.foldlRecOn (motive := fun after => after.get? key = table.get? key) found bind rfl ?_
  intro after hafter binding hbinding
  rw [get?_bind, if_neg (h binding hbinding), hafter]

/-- A name stands for the table of the last binding that has it. -/
theorem get?_resolve {first rest : List Binding} {last : Binding}
    (hbindings : bindings text = first ++ last :: rest) (hlast : key ∈ last.names)
    (hrest : ∀ later ∈ rest, key ∉ later.names) : (resolve text).get? key = some last.table := by
  rw [resolve, hbindings, List.foldl_append, List.foldl_cons, get?_foldl_bind_of_not_mem hrest,
    get?_bind, if_pos hlast]

theorem get?_resolve_eq_none_iff :
    (resolve text).get? key = none ↔ ∀ binding ∈ bindings text, key ∉ binding.names := by
  rw [KeyedList.get?_eq_none_iff, keys_resolve, List.mem_eraseDups, mem_boundNames]
  simp

/-- What a name stands for is a name itself. -/
theorem mem_keys_of_get?_resolve (h : (resolve text).get? key = some name) :
    name ∈ (resolve text).keys := by
  refine forall_entries_resolve (P := fun _ name => name ∈ (resolve text).keys) ?_ _
    (KeyedList.get?_eq_some_iff.1 h)
  intro binding hbinding
  have hmem : binding.table ∈ (resolve text).keys :=
    mem_keys_resolve.2 ⟨binding, hbinding, .inr rfl⟩
  exact ⟨hmem, hmem⟩

/-- A temporary table stands for itself, whatever else the text binds. -/
theorem get?_resolve_of_hash (hkey : key ∈ (resolve text).keys)
    (hhash : key.toList.head? = some '#') : (resolve text).get? key = some key := by
  obtain ⟨⟨_, name⟩, hentry, rfl⟩ := List.mem_map.1 hkey
  rcases isIdentifier_or_eq hentry with hidentifier | rfl
  · have hword := (isIdentifier_iff.1 hidentifier).2 '#' (List.mem_of_head? hhash)
    cases hword
  · exact KeyedList.get?_eq_some_iff.2 hentry

/-- The number of names that the bindings have. -/
theorem size_resolve (text : String) :
    (resolve text).size = (boundNames text).toFinset.card := by
  have hnames : (boundNames text).toFinset = (resolve text).keys.toFinset := by
    ext key
    rw [List.mem_toFinset, List.mem_toFinset, keys_resolve, List.mem_eraseDups]
  have hnodup : (resolve text).keys.Nodup := (resolve text).nodup_keys
  rw [hnames, List.toFinset_card_of_nodup hnodup, KeyedList.length_keys]

/-- A name that no binding has is not in the table, and any other stands for itself if it is the
table of the last binding that has it, and else for that table. The table has each name once, in the
order in which the bindings have them first, the alias before the table. Whatever a name stands for
is a name, and a temporary table stands for itself. -/
theorem resolve_lastBinding (text : String) :
    (∀ key, (resolve text).get? key = none ↔ ∀ binding ∈ bindings text, key ∉ binding.names) ∧
      (∀ {key first last rest}, bindings text = first ++ last :: rest → key ∈ last.names →
        (∀ later ∈ rest, key ∉ later.names) →
        (resolve text).get? key = some (if key = last.table then key else last.table)) ∧
      (resolve text).keys.Nodup ∧
      (∀ key, key ∈ (resolve text).keys ↔ key ∈ boundNames text) ∧
      (resolve text).keys.Pairwise (fun key later =>
        (boundNames text).idxOf key < (boundNames text).idxOf later) ∧
      (∀ {key name}, (resolve text).get? key = some name → name ∈ (resolve text).keys) ∧
      (∀ key ∈ (resolve text).keys, key.toList.head? = some '#' →
        (resolve text).get? key = some key) ∧
      (resolve text).size = (boundNames text).toFinset.card := by
  refine ⟨fun key => get?_resolve_eq_none_iff, ?_, (resolve text).nodup_keys, ?_, ?_,
    mem_keys_of_get?_resolve, fun key => get?_resolve_of_hash, size_resolve text⟩
  · intro key first last rest hbindings hlast hrest
    rw [get?_resolve hbindings hlast hrest]
    split
    · next hkey => rw [hkey]
    · rfl
  · intro key
    rw [keys_resolve, List.mem_eraseDups]
  · rw [keys_resolve]
    exact pairwise_idxOf_eraseDups _

/-! A table that was an alias before stands for itself, and `x` keeps its place. -/

example : (resolve "FROM #t x JOIN a x FROM x a").entries =
    [("x", "x"), ("#t", "#t"), ("a", "x")] := by
  decide +kernel

end Table

end Codename.Alias
