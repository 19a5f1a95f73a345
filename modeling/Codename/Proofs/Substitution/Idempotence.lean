import Codename.Proofs.Substitution.Steps

/-!
# Encrypting twice

An encrypted query is another source than the query: it mentions tables by their code names only,
and its aliases are looked up anew. Still the second pass has nothing to do. The search for aliases
does not see columns, so every qualifier stands for what it stood for, and a table is mentioned in
the encrypted query if one with the same code name is mentioned in the query, so that a column that
could be of no or of several tables still could.

## Main statements

* `Mapping.resolve_encrypt` — the aliases of an encrypted query.
* `Mapping.mem_referencedOwners_encrypt` — the tables that an encrypted query mentions.
* `Mapping.encrypt_encrypt` — encrypting an encrypted query changes nothing.
-/

namespace Codename.Mapping

open Codename.Text
open Codename.Alias (KeepsClauses withoutHash)

variable {mapping : Mapping} {text column : String}

/-- The encrypted query, word by word of the query with its tables substituted. -/
theorem wordwise_columnWord_encrypt (hapart : mapping.CodesApart)
    (hkeys : mapping.KeysApart (mapping.queryAliases text)) :
    Wordwise
      (fun b w w' => w' = mapping.columnWord text (mapping.queryAliases text) (charsBefore b) w)
      (mapping.substituteTables text) (mapping.encrypt text) :=
  wordwise_substituteColumns text _ hapart.codeColumns hkeys.stableNames

theorem wordwise_columnsRecoded_encrypt (hapart : mapping.CodesApart)
    (hkeys : mapping.KeysApart (mapping.queryAliases text)) :
    Wordwise (fun _ w w' => mapping.ColumnsRecoded w w') (mapping.substituteTables text)
      (mapping.encrypt text) := by
  refine (wordwise_columnWord_encrypt hapart hkeys).imp ?_
  rintro b w _ - rfl
  exact columnsRecoded_columnWord mapping text _ _ w

/-! ### Aliases -/

/-- Replacing columns keeps clauses as they are, if no keyword is a column or a code name. -/
theorem keepsClauses_columnsRecoded
    (hkeywords : ∀ keyword ∈ ["FROM", "JOIN", "AS"],
      keyword ∉ mapping.columnNames ∧ keyword ∉ mapping.codeColumns) :
    KeepsClauses (fun w w' => isIdentifier w = true ∧ mapping.ColumnsRecoded w w')
      (· ∉ mapping.columnNames) where
  identifier := And.left
  keyword := by
    rintro w w' keyword hmem ⟨-, hrecoded⟩
    exact hrecoded.eq_iff (hkeywords keyword hmem).1 (hkeywords keyword hmem).2
  fixed := by
    rintro w w' ⟨-, heq | ⟨hcolumn, -⟩⟩ hnot
    · exact heq
    · exact absurd hcolumn hnot

/-- The aliases of an encrypted query are those of the query with its tables substituted. -/
theorem resolve_encrypt (hapart : mapping.CodesApart)
    (hkeywords : ∀ keyword ∈ ["FROM", "JOIN", "AS"],
      keyword ∉ mapping.columnNames ∧ keyword ∉ mapping.codeColumns)
    (hkeys : mapping.KeysApart (mapping.queryAliases text)) :
    Alias.Table.resolve (mapping.encrypt text) = mapping.queryAliases text := by
  have hnames : ∀ binding ∈ Alias.bindings (mapping.substituteTables text),
      binding.name ∉ mapping.columnNames ∧ withoutHash binding.table ∉ mapping.columnNames := by
    intro binding hbinding
    have hname := hkeys binding.name
      (Alias.Table.mem_keys_resolve.2 ⟨binding, hbinding, .inl rfl⟩)
    have htable := hkeys binding.table
      (Alias.Table.mem_keys_resolve.2 ⟨binding, hbinding, .inr rfl⟩)
    have hidentifier : isIdentifier binding.name = true :=
      (isCut_segments _).valid _ (Alias.exists_word_of_mem_bindings hbinding)
    rw [Alias.withoutHash_of_isIdentifier hidentifier] at hname
    exact ⟨hname.1, htable.1⟩
  have hbindings : Alias.bindings (mapping.encrypt text) =
      Alias.bindings (mapping.substituteTables text) :=
    Alias.bindings_eq_of_wordwise (Q := mapping.ColumnsRecoded) (fun _ _ _ => id)
      (keepsClauses_columnsRecoded hkeywords) hnames (wordwise_columnsRecoded_encrypt hapart hkeys)
  rw [queryAliases, Alias.Table.resolve, Alias.Table.resolve, hbindings]

/-! ### Mentioned tables -/

/-- A table is mentioned in an encrypted query if the query has its code name or a table with the
same code name. -/
theorem mem_referencedOwners_encrypt (hapart : mapping.CodesApart)
    (hcodes : ∀ code ∈ mapping.codeColumns, code ∉ mapping.codeTables)
    (hkeys : mapping.KeysApart (mapping.queryAliases text))
    {entry : String × String} :
    entry ∈ mapping.referencedOwners (mapping.encrypt text) column ↔
      entry ∈ mapping.owningEntries column ∧
        (hasWord text entry.2 = true ∨
          ∃ table, (table, entry.2) ∈ mapping.tables.entries ∧ hasWord text table = true) := by
  rw [referencedOwners, List.mem_filter]
  refine and_congr_right fun howner => ?_
  have hentry : entry ∈ mapping.tables.entries := (List.mem_filter.1 howner).1
  have hkey : entry.1 ∈ mapping.tables.keys := List.mem_map.2 ⟨entry, hentry, rfl⟩
  have hcode : entry.2 ∈ mapping.codeTables := List.mem_map.2 ⟨entry, hentry, rfl⟩
  -- replacing columns neither makes nor removes the code name of a table
  have hcolumns : hasWord (mapping.encrypt text) entry.2 =
      hasWord (mapping.substituteTables text) entry.2 :=
    (wordwise_columnsRecoded_encrypt hapart hkeys).hasWord_eq (fun _ _ _ => id)
      (hapart.not_mem_columnNames (List.mem_append_left _ hentry))
      fun hmem => hcodes _ hmem hcode
  rw [hasWord_encrypt_of_mem_keys hapart hkey, Bool.false_or, hcolumns,
    hasWord_substituteTables hapart.codeTables hcode]

/-- If only one table can be meant in the encrypted query, then only one could be in the query. -/
theorem length_referencedOwners_of_encrypt (hapart : mapping.CodesApart)
    (hcodes : ∀ code ∈ mapping.codeColumns, code ∉ mapping.codeTables)
    (hkeys : mapping.KeysApart (mapping.queryAliases text))
    (h : (mapping.referencedOwners (mapping.encrypt text) column).length = 1) :
    (mapping.referencedOwners text column).length = 1 := by
  have hmem : ∀ {entry}, entry ∈ mapping.referencedOwners text column ↔
      entry ∈ mapping.owningEntries column ∧
        (hasWord text entry.1 = true ∨ hasWord text entry.2 = true) := by
    intro entry
    rw [referencedOwners, List.mem_filter, Bool.or_eq_true]
  have hsubset : mapping.referencedOwners text column ⊆
      mapping.referencedOwners (mapping.encrypt text) column := by
    intro entry hentry
    obtain ⟨howner, hword⟩ := hmem.1 hentry
    refine (mem_referencedOwners_encrypt hapart hcodes hkeys).2 ⟨howner, ?_⟩
    rcases hword with hword | hword
    · exact .inr ⟨entry.1, (List.mem_filter.1 howner).1, hword⟩
    · exact .inl hword
  obtain ⟨entry, hsole⟩ := List.length_eq_one_iff.1 h
  have hentry : entry ∈ mapping.referencedOwners (mapping.encrypt text) column := by
    rw [hsole]
    exact List.mem_singleton_self entry
  obtain ⟨howner, hmentioned⟩ := (mem_referencedOwners_encrypt hapart hcodes hkeys).1 hentry
  have hsome : ∃ other, other ∈ mapping.referencedOwners text column := by
    rcases hmentioned with hword | ⟨table, htable, hword⟩
    · exact ⟨entry, hmem.2 ⟨howner, .inr hword⟩⟩
    · -- the tables share the code name, and with it their columns
      refine ⟨(table, entry.2), hmem.2 ⟨List.mem_filter.2 ⟨htable, ?_⟩, .inl hword⟩⟩
      exact (List.mem_filter.1 howner).2
  obtain ⟨other, hother⟩ := hsome
  have hpos := List.length_pos_of_mem hother
  have hle := List.Nodup.length_le_of_subset (nodup_referencedOwners mapping text column) hsubset
  omega

/-! ### The second pass -/

/-- What the first pass made of a word, the second leaves as it is. -/
theorem columnWord_columnWord_encrypt (hapart : mapping.CodesApart)
    (hcodes : ∀ code ∈ mapping.codeColumns, code ∉ mapping.codeTables)
    (hkeys : mapping.KeysApart (mapping.queryAliases text))
    {before before' : List Segment} {word word' : String}
    (halign : Aligned mapping.ColumnsRecoded before before' word word')
    (hword : word' =
      mapping.columnWord text (mapping.queryAliases text) (charsBefore before) word) :
    mapping.columnWord (mapping.encrypt text) (mapping.queryAliases text) (charsBefore before')
      word' = word' := by
  by_cases hcolumn : word' ∈ mapping.columnNames
  · -- a column that is left was left alone, and none of the reasons for this has gone
    have hsame : word' = word := by
      rcases columnsRecoded_columnWord mapping text _ (charsBefore before) word with h | ⟨-, h⟩
      · exact hword.trans h
      · rw [← hword] at h
        exact absurd hcolumn (hapart.codeColumns word' h)
    subst hsame
    rw [columnWord, wordAfter, if_pos hcolumn, eq_comm,
      columnCode_eq_self_iff hapart.codeColumns hcolumn] at hword
    rw [columnWord, wordAfter, if_pos hcolumn,
      columnCode_eq_self_iff hapart.codeColumns hcolumn,
      hkeys.stableNames.qualifiedCode?_eq halign, halign.head?_charsBefore]
    refine ⟨hword.1, hword.2.imp_right fun hsole => ?_⟩
    rw [soleCodeColumn?_eq_none_iff] at hsole ⊢
    exact mt (length_referencedOwners_of_encrypt hapart hcodes hkeys) hsole
  · rw [columnWord, wordAfter, if_neg hcolumn]

/-- Encrypting an encrypted query changes nothing. -/
theorem encrypt_encrypt (mapping : Mapping) (text : String) (hapart : mapping.CodesApart)
    (hcodes : ∀ code ∈ mapping.codeColumns, code ∉ mapping.codeTables)
    (hkeywords : ∀ keyword ∈ ["FROM", "JOIN", "AS"],
      keyword ∉ mapping.columnNames ∧ keyword ∉ mapping.codeColumns)
    (hkeys : mapping.KeysApart (Alias.Table.resolve (mapping.substituteTables text))) :
    mapping.encrypt (mapping.encrypt text) = mapping.encrypt text := by
  have htables : mapping.substituteTables (mapping.encrypt text) = mapping.encrypt text :=
    substituteTables_eq_self fun table => hasWord_encrypt_of_mem_keys hapart
  -- both passes are followed from the query with its tables substituted
  have hfirst := wordwise_columnWord_encrypt hapart hkeys
  have hsecond : Wordwise
      (fun b w w' => w' = mapping.columnWord text (mapping.queryAliases text) (charsBefore b) w)
      (mapping.substituteTables text)
      (mapWords (mapping.columnWord (mapping.encrypt text) (mapping.queryAliases text))
        (mapping.encrypt text)) := by
    refine hfirst.map (Q := mapping.ColumnsRecoded) ?_ (keepsWords_columnWord mapping _ _) ?_
    · rintro b w _ rfl
      exact columnsRecoded_columnWord mapping text _ _ w
    · intro b b' w w' halign hword
      rw [columnWord_columnWord_encrypt hapart hcodes hkeys halign hword]
      exact hword
  calc mapping.encrypt (mapping.encrypt text)
      = mapping.substituteColumns (mapping.encrypt text) (mapping.queryAliases text)
          (mapping.encrypt text) := by
        conv_lhs => rw [encrypt]
        rw [htables, resolve_encrypt hapart hkeywords hkeys]
    _ = mapWords (mapping.columnWord (mapping.encrypt text) (mapping.queryAliases text))
          (mapping.encrypt text) :=
        substituteColumns_eq_mapWords _ _ hapart.codeColumns hkeys.stableNames
    _ = mapWords (mapping.columnWord text (mapping.queryAliases text))
          (mapping.substituteTables text) := hsecond.eq_mapWords
    _ = mapping.encrypt text := hfirst.eq_mapWords.symm

/-- The bare `id` is of two tables, and `x` stands for none. -/
theorem encrypt_encrypt_shop :
    shop.CodesApart ∧ (∀ code ∈ shop.codeColumns, code ∉ shop.codeTables) ∧
      (∀ keyword ∈ ["FROM", "JOIN", "AS"],
        keyword ∉ shop.columnNames ∧ keyword ∉ shop.codeColumns) ∧
      shop.KeysApart (Alias.Table.resolve
        (shop.substituteTables "c.id, id, x.total FROM customer c, orders")) ∧
      shop.encrypt "c.id, id, x.total FROM customer c, orders" =
        "c.C1, id, x.D2 FROM T1 c, T2" ∧
      shop.encrypt (shop.encrypt "c.id, id, x.total FROM customer c, orders") =
        shop.encrypt "c.id, id, x.total FROM customer c, orders" := by
  have hapart : shop.CodesApart := by decide +kernel
  have hcodes : ∀ code ∈ shop.codeColumns, code ∉ shop.codeTables := by decide +kernel
  have hkeywords : ∀ keyword ∈ ["FROM", "JOIN", "AS"],
      keyword ∉ shop.columnNames ∧ keyword ∉ shop.codeColumns := by decide +kernel
  have hkeys : shop.KeysApart (Alias.Table.resolve
      (shop.substituteTables "c.id, id, x.total FROM customer c, orders")) := by
    decide +kernel
  exact ⟨hapart, hcodes, hkeywords, hkeys, by decide +kernel,
    encrypt_encrypt shop _ hapart hcodes hkeywords hkeys⟩

end Codename.Mapping
