import Codename.Proofs.Substitution.Tables

/-!
# Renaming tables all at once

Tables are replaced one after another, each in what has become of the text. If different tables have
different code names, this gives the text with all tables renamed at once if and only if no table of
the text has the plain name of a later table for its code name: such a code name is taken for that
table when its turn comes.

## Main definitions

* `Mapping.renameTables` — a text with all tables renamed at once.
* `Mapping.TablesApart` — no code name of a table is the plain name of another.

## Main statements

* `Mapping.tableWord_eq_code_iff` — when a table gets its own code name.
* `Mapping.substituteTables_eq_renameTables_iff` — when all tables of a text do.
* `Mapping.substituteTables_once` — this and the mappings for which it is so in every text.
* `Mapping.not_substituteTables_once_archive` — a mapping for which it is not so.
-/

namespace Codename.Mapping

open Codename.Text

/-- The text with each word that is a table replaced by its code name. -/
def renameTables (mapping : Mapping) (text : String) : String :=
  mapWords (fun _ word => (mapping.codeTable? word).getD word) text

/-- No code name of a table is the plain name of another table. -/
def TablesApart (mapping : Mapping) : Prop :=
  ∀ entry ∈ mapping.tables.entries, ∀ other ∈ mapping.tables.entries,
    entry.2 = other.1 → entry = other

variable {mapping : Mapping} {text word table code : String}

instance : Decidable mapping.TablesApart :=
  inferInstanceAs (Decidable (∀ entry ∈ mapping.tables.entries,
    ∀ other ∈ mapping.tables.entries, entry.2 = other.1 → entry = other))

/-! ### The run for one word -/

/-- A table ends up with some code name, its own or that of a later table. -/
theorem foldl_renameTable_mem {entries : List (String × String)}
    (h : word ∈ entries.map Prod.fst) :
    entries.foldl renameTable word ∈ entries.map Prod.snd := by
  induction entries generalizing word with
  | nil => cases h
  | cons entry entries ih =>
    rw [List.foldl_cons, List.map_cons, List.mem_cons, renameTable]
    split
    · by_cases hlater : entry.2 ∈ entries.map Prod.fst
      · exact .inr (ih hlater)
      · exact .inl (foldl_renameTable_of_not_mem hlater)
    · next hne =>
      rw [List.map_cons, List.mem_cons] at h
      exact .inr (ih (h.resolve_left hne))

/-- What becomes of a table depends on the later tables only. -/
theorem tableWord_of_append {first last : List (String × String)}
    (hentries : mapping.tables.entries = first ++ (table, code) :: last) :
    mapping.tableWord table = last.foldl renameTable code := by
  have hnodup : ((first ++ (table, code) :: last).map Prod.fst).Nodup :=
    hentries ▸ mapping.tables.nodup_keys
  rw [List.map_append, List.map_cons, List.nodup_append] at hnodup
  obtain ⟨-, -, hapart⟩ := hnodup
  have hfirst : table ∉ first.map Prod.fst := fun hmem =>
    hapart table hmem table List.mem_cons_self rfl
  rw [tableWord, hentries, List.foldl_append, foldl_renameTable_of_not_mem hfirst, List.foldl_cons,
    renameTable, if_pos rfl]

/-- A table gets its own code name if this is not the plain name of a later table. -/
theorem tableWord_eq_code_iff (hcodes : mapping.codeTables.Nodup)
    {first last : List (String × String)}
    (hentries : mapping.tables.entries = first ++ (table, code) :: last) :
    mapping.tableWord table = code ↔ ∀ later ∈ last, code ≠ later.1 := by
  have hnot : (∀ later ∈ last, code ≠ later.1) ↔ code ∉ last.map Prod.fst := by
    rw [List.mem_map]
    exact ⟨fun h ⟨later, hlater, hsame⟩ => h later hlater hsame.symm,
      fun h later hlater hsame => h ⟨later, hlater, hsame.symm⟩⟩
  rw [tableWord_of_append hentries, hnot]
  refine ⟨fun hsame hlater => ?_, foldl_renameTable_of_not_mem⟩
  -- the code name of a later table stands there, and that is another one
  have hcode := foldl_renameTable_mem hlater
  rw [hsame] at hcode
  have hnodup : ((first ++ (table, code) :: last).map Prod.snd).Nodup := hentries ▸ hcodes
  rw [List.map_append, List.map_cons, List.nodup_append, List.nodup_cons] at hnodup
  exact hnodup.2.1.1 hcode

/-! ### Texts -/

theorem keepsWords_codeTable (mapping : Mapping) :
    KeepsWords fun _ word => (mapping.codeTable? word).getD word := by
  intro before word hword
  show isIdentifier ((mapping.codeTable? word).getD word) = true
  cases hcode : mapping.codeTable? word with
  | none => exact hword
  | some code => exact (isIdentifier_of_mem_tables (KeyedList.get?_eq_some_iff.1 hcode)).2

/-- All tables of a text are renamed if each of its words becomes what it should. -/
theorem substituteTables_eq_renameTables_iff_words :
    mapping.substituteTables text = mapping.renameTables text ↔
      ∀ word, hasWord text word = true →
        mapping.tableWord word = (mapping.codeTable? word).getD word := by
  have hrenamed := wordwise_mapWords (keepsWords_codeTable mapping) text
  have hsubstituted := wordwise_substituteTables mapping text
  constructor
  · intro hsame word hword
    obtain ⟨before, hplace⟩ := hasWord_iff.1 hword
    rw [hsame] at hsubstituted
    obtain ⟨-, word', -, ⟨hfirst, hsecond⟩, -⟩ := (hsubstituted.and hrenamed).exists_right
      (Q := fun _ _ => True) (fun _ _ _ _ => trivial) hplace
    rw [← hfirst, hsecond]
  · intro hwords
    refine (hsubstituted.imp ?_).eq_mapWords
      (f := fun _ word => (mapping.codeTable? word).getD word)
    rintro before word _ hplace rfl
    exact hwords word (hasWord_iff.2 ⟨before, hplace⟩)

/-- All tables of a text are renamed if none of them has the plain name of a later table for its
code name. -/
theorem substituteTables_eq_renameTables_iff (hcodes : mapping.codeTables.Nodup) :
    mapping.substituteTables text = mapping.renameTables text ↔
      mapping.tables.entries.Pairwise fun entry later =>
        hasWord text entry.1 = true → entry.2 ≠ later.1 := by
  rw [substituteTables_eq_renameTables_iff_words]
  constructor
  · intro hwords
    rw [List.pairwise_iff_forall_sublist]
    intro entry later hsublist hword
    obtain ⟨first, rest, hentries, hentry, hlater⟩ := List.cons_sublist_iff.1 hsublist
    obtain ⟨first, middle, rfl⟩ := List.append_of_mem hentry
    have hsplit : mapping.tables.entries = first ++ entry :: (middle ++ rest) := by
      simpa using hentries
    have hmem : (entry.1, entry.2) ∈ mapping.tables.entries := by simp [hsplit]
    have hown := hwords entry.1 hword
    rw [codeTable?, KeyedList.get?_eq_some_iff.2 hmem, Option.getD_some] at hown
    exact (tableWord_eq_code_iff hcodes hsplit).1 hown later
      (List.mem_append_right _ (List.singleton_sublist.1 hlater))
  · intro hpairs word hword
    cases hcode : mapping.codeTable? word with
    | none => exact foldl_renameTable_of_not_mem (KeyedList.get?_eq_none_iff.1 hcode)
    | some code =>
      obtain ⟨first, last, hsplit⟩ := List.append_of_mem (KeyedList.get?_eq_some_iff.1 hcode)
      have htable : (word, code) ∈ mapping.tables.entries := KeyedList.get?_eq_some_iff.1 hcode
      rw [hsplit, List.pairwise_append, List.pairwise_cons] at hpairs
      refine (tableWord_eq_code_iff hcodes hsplit).2 fun later hlater => ?_
      exact hpairs.2.1.1 later hlater hword

/-! ### Mappings -/

theorem tableWord_of_tablesApart (hcodes : mapping.codeTables.Nodup) (hapart : mapping.TablesApart)
    (word : String) : mapping.tableWord word = (mapping.codeTable? word).getD word := by
  cases hcode : mapping.codeTable? word with
  | none => exact foldl_renameTable_of_not_mem (KeyedList.get?_eq_none_iff.1 hcode)
  | some code =>
    have hentry : (word, code) ∈ mapping.tables.entries := KeyedList.get?_eq_some_iff.1 hcode
    obtain ⟨first, last, hsplit⟩ := List.append_of_mem hentry
    refine (tableWord_eq_code_iff hcodes hsplit).2 fun later hlater hsame => ?_
    have hmem : later ∈ mapping.tables.entries := by simp [hsplit, hlater]
    obtain rfl : (word, code) = later := hapart _ hentry _ hmem hsame
    -- the table would be listed twice
    have hnodup := mapping.tables.nodup_keys.of_map
    rw [hsplit, List.nodup_append, List.nodup_cons] at hnodup
    exact hnodup.2.1.1 hlater

/-- A second run leaves alone what the first has made of a word. -/
theorem tableWord_tableWord (hcodes : mapping.codeTables.Nodup) (hapart : mapping.TablesApart)
    (word : String) : mapping.tableWord (mapping.tableWord word) = mapping.tableWord word := by
  rw [tableWord_of_tablesApart hcodes hapart word]
  cases hcode : mapping.codeTable? word with
  | none =>
    rw [Option.getD_none, tableWord_of_tablesApart hcodes hapart, hcode, Option.getD_none]
  | some code =>
    rw [Option.getD_some, tableWord_of_tablesApart hcodes hapart]
    cases hagain : mapping.codeTable? code with
    | none => rw [Option.getD_none]
    | some other =>
      have hsame : (word, code) = (code, other) :=
        hapart _ (KeyedList.get?_eq_some_iff.1 hcode) _ (KeyedList.get?_eq_some_iff.1 hagain) rfl
      rw [Option.getD_some]
      exact (Prod.ext_iff.1 hsame).2.symm

/-- If different tables have different code names, substituting tables renames all tables of a text
at once if and only if none of them has the plain name of a later table for its code name. This is
so for every text, and a second run changes nothing, if and only if no code name is the plain name
of another table. -/
theorem substituteTables_once (mapping : Mapping) (hcodes : mapping.codeTables.Nodup) :
    (∀ text, mapping.substituteTables text = mapping.renameTables text ↔
        mapping.tables.entries.Pairwise fun entry later =>
          hasWord text entry.1 = true → entry.2 ≠ later.1) ∧
      ((∀ text, mapping.substituteTables text = mapping.renameTables text ∧
          mapping.substituteTables (mapping.substituteTables text) =
            mapping.substituteTables text) ↔ mapping.TablesApart) := by
  refine ⟨fun text => substituteTables_eq_renameTables_iff hcodes, ?_, ?_⟩
  · intro h entry hentry other hother hsame
    obtain ⟨hplain, hcode⟩ := isIdentifier_of_mem_tables hentry
    have hown : ∀ {table code}, (table, code) ∈ mapping.tables.entries →
        mapping.tableWord table = code := by
      intro table code hmem
      have hidentifier := (isIdentifier_of_mem_tables hmem).1
      have htext := (h table).1
      rwa [substituteTables_of_isIdentifier hidentifier, renameTables,
        mapWords_of_isIdentifier hidentifier, codeTable?, KeyedList.get?_eq_some_iff.2 hmem,
        Option.getD_some] at htext
    -- the second run turns the code name into that of the other table
    have htwice := (h entry.1).2
    rw [substituteTables_of_isIdentifier hplain, hown hentry,
      substituteTables_of_isIdentifier hcode, hsame, hown hother] at htwice
    exact List.inj_on_of_nodup_map hcodes hentry hother (hsame.trans htwice.symm)
  · intro hapart text
    refine ⟨substituteTables_eq_renameTables_iff_words.2 fun word _ =>
      tableWord_of_tablesApart hcodes hapart word, ?_⟩
    have htwice : Wordwise (fun _ w w' => w' = w) (mapping.substituteTables text)
        (mapping.substituteTables (mapping.substituteTables text)) := by
      refine (wordwise_substituteTables mapping _).imp ?_
      rintro before word _ hplace rfl
      obtain ⟨word, -, rfl⟩ := (wordwise_substituteTables mapping text).hasWord_iff.1
        (hasWord_iff.2 ⟨before, hplace⟩)
      exact tableWord_tableWord hcodes hapart word
    exact htwice.eq

/-- In the small shop every table is renamed once. -/
theorem substituteTables_once_shop :
    shop.codeTables.Nodup ∧ shop.TablesApart ∧
      shop.substituteTables "FROM orders, customer" = "FROM T2, T1" ∧
      shop.renameTables "FROM orders, customer" = "FROM T2, T1" ∧
      shop.substituteTables (shop.substituteTables "FROM orders, customer") =
        shop.substituteTables "FROM orders, customer" := by
  have hcodes : shop.codeTables.Nodup := by decide +kernel
  have hapart : shop.TablesApart := by decide +kernel
  obtain ⟨-, hiff⟩ := substituteTables_once shop hcodes
  obtain ⟨hrenamed, htwice⟩ := hiff.2 hapart "FROM orders, customer"
  exact ⟨hcodes, hapart, by decide +kernel, hrenamed.symm.trans (by decide +kernel), htwice⟩

/-! ### A code name that is a later table -/

/-- Tables that take over the names of each other. -/
def archive : Mapping where
  document := {
    tables := .ofList [("orders", "invoices"), ("customer", "orders"), ("invoices", "T1")]
    columns := ∅ }
  valid := by decide +kernel

/-- The code name of `orders` is replaced at the turn of the table of this name, so that after a
second run no two tables can be told apart. -/
theorem not_substituteTables_once_archive :
    archive.codeTables.Nodup ∧
      archive.renameTables "FROM customer, orders" = "FROM orders, invoices" ∧
      archive.substituteTables "FROM customer, orders" = "FROM orders, T1" ∧
      archive.substituteTables (archive.substituteTables "FROM customer, orders") =
        "FROM T1, T1" ∧
      ¬(archive.substituteTables "FROM customer, orders" =
          archive.renameTables "FROM customer, orders" ∧
        archive.substituteTables (archive.substituteTables "FROM customer, orders") =
          archive.substituteTables "FROM customer, orders") := by
  have hrenamed : archive.renameTables "FROM customer, orders" = "FROM orders, invoices" := by
    decide +kernel
  have honce : archive.substituteTables "FROM customer, orders" = "FROM orders, T1" := by
    decide +kernel
  have htwice : archive.substituteTables (archive.substituteTables "FROM customer, orders") =
      "FROM T1, T1" := by
    decide +kernel
  refine ⟨by decide +kernel, hrenamed, honce, htwice, ?_⟩
  rintro ⟨hsame, -⟩
  rw [honce, hrenamed] at hsame
  revert hsame
  decide

end Codename.Mapping
