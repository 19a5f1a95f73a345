import Codename.Alias.Token
import Codename.KeyedList

/-!
# Aliases

A clause `FROM table alias`, `FROM table AS alias`, or one of these with `JOIN`, binds an alias to a
table. The keywords are case sensitive and the table is a word or a `#` with a word right after it.
Clauses are read from left to right without overlap. A word after the table is its alias even if it
is a keyword, and an `AS` that no word follows is an alias itself.

## Main definitions

* `Binding` — an alias and the table it stands for.
* `clause?` — reads what follows a clause keyword.
* `bindings` — every binding of a text, in order.
* `Alias.Table`, `Alias.Table.resolve` — the alias table of a text.
-/

namespace Codename.Alias

/-! ### Bindings -/

/-- An alias and the table that it stands for. -/
structure Binding where
  name : String
  table : String
  deriving Repr, DecidableEq

/-- Reads white space and a table: a word, or `#` and a word. -/
def table? : List Token → Option (String × List Token)
  | .space :: .word chars :: rest => some (String.ofList chars, rest)
  | .space :: .hash :: .word chars :: rest => some (String.ofList ('#' :: chars), rest)
  | _ => none

/-- Reads white space and an alias, which `AS` and more white space may introduce. -/
def name? : List Token → Option (String × List Token)
  | .space :: .word ['A', 'S'] :: .space :: .word chars :: rest =>
    some (String.ofList chars, rest)
  | .space :: .word chars :: rest => some (String.ofList chars, rest)
  | _ => none

/-- Reads the part of a clause that follows its keyword. -/
def clause? (tokens : List Token) : Option (Binding × List Token) := do
  let (table, rest) ← table? tokens
  let (name, rest) ← name? rest
  pure (⟨name, table⟩, rest)

/-- The words that start a clause. -/
def isKeyword (chars : List Char) : Bool :=
  chars == ['F', 'R', 'O', 'M'] || chars == ['J', 'O', 'I', 'N']

theorem length_lt_of_table? {tokens rest : List Token} {table : String}
    (h : table? tokens = some (table, rest)) : rest.length < tokens.length := by
  unfold table? at h
  split at h
  · cases h
    simp only [List.length_cons]
    omega
  · cases h
    simp only [List.length_cons]
    omega
  · cases h

theorem length_lt_of_name? {tokens rest : List Token} {name : String}
    (h : name? tokens = some (name, rest)) : rest.length < tokens.length := by
  unfold name? at h
  split at h
  · cases h
    simp only [List.length_cons]
    omega
  · cases h
    simp only [List.length_cons]
    omega
  · cases h

theorem length_lt_of_clause? {tokens rest : List Token} {binding : Binding}
    (h : clause? tokens = some (binding, rest)) : rest.length < tokens.length := by
  simp only [clause?, Option.bind_eq_bind, Option.bind_eq_some_iff, Option.pure_def,
    Option.some.injEq, Prod.exists, Prod.mk.injEq] at h
  obtain ⟨table, middle, htable, name, last, hname, -, rfl⟩ := h
  exact Nat.lt_trans (length_lt_of_name? hname) (length_lt_of_table? htable)

/-- The bindings of a row of tokens. After a clause the search goes on right behind its alias. -/
def bindingsOf : List Token → List Binding
  | .word chars :: rest =>
    if isKeyword chars then
      match h : clause? rest with
      | some (binding, after) =>
        have := length_lt_of_clause? h
        binding :: bindingsOf after
      | none => bindingsOf rest
    else bindingsOf rest
  | _ :: rest => bindingsOf rest
  | [] => []
termination_by tokens => tokens.length
decreasing_by all_goals simp_wf <;> omega

/-- Every alias binding of a text, in the order of the clauses. -/
def bindings (text : String) : List Binding :=
  bindingsOf (Token.ofText text.toList)

/-! ### The table -/

/-- The tables that the qualifiers of one query stand for. -/
abbrev Table := KeyedList String

/-- Enters the alias of a binding, then its table under its own name. -/
def Table.bind (table : Table) (binding : Binding) : Table :=
  (table.insert binding.name binding.table).insert binding.table binding.table

def Table.resolve (text : String) : Table :=
  (bindings text).foldl Table.bind ∅

end Codename.Alias
