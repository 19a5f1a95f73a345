import Codename.Proofs.Alias.Tokens

/-!
# Symbols separate clauses

A clause has no symbols in it. Where one stands, the reading of a clause ends just as it does at the
end of a text, and so the bindings of a text with a symbol are those in front of it and those behind
it.

## Main statements

* `clause?_append_symbol` — a clause in front of a symbol.
* `bindings_append_symbol` — the bindings of two texts with a symbol between them.
-/

namespace Codename.Alias

open Codename.Text

/-! ### Tokens with a symbol between them -/

theorem push_append_symbol (c : Char) (tokens after : List Token) :
    Token.push c (tokens ++ .symbol :: after) = Token.push c tokens ++ .symbol :: after := by
  unfold Token.push
  rcases tokens with _ | ⟨_ | _ | _ | _, tokens⟩ <;> split_ifs <;> rfl

theorem ofText_append_symbol {s : Char} {rest : List Char}
    (hs : Token.symbol.Begins (s :: rest) rest) (text : List Char) :
    Token.ofText (text ++ s :: rest) = Token.ofText text ++ .symbol :: Token.ofText rest := by
  induction text with
  | nil => exact hs.ofText
  | cons c text ih =>
    rw [List.cons_append, Token.ofText_cons, ih, push_append_symbol, Token.ofText_cons]

/-! ### Clauses in front of a symbol -/

theorem table?_append_symbol (tokens after : List Token) :
    table? (tokens ++ .symbol :: after) =
      (table? tokens).map fun read => (read.1, read.2 ++ .symbol :: after) := by
  rcases tokens with _ | ⟨_ | _ | _ | _, _ | ⟨_ | _ | _ | _, _ | ⟨_ | _ | _ | _, tokens⟩⟩⟩ <;> rfl

/-- A word that follows white space in front of a symbol is there without the symbol. -/
theorem append_symbol_eq_space_word {tokens after rest : List Token} {chars : List Char} :
    tokens ++ .symbol :: after = .space :: .word chars :: rest ↔
      ∃ rest', tokens = .space :: .word chars :: rest' ∧ rest = rest' ++ .symbol :: after := by
  rcases tokens with _ | ⟨first, _ | ⟨second, tokens⟩⟩
  · simp
  · simp
  · simp [eq_comm, and_assoc]

theorem name?_append_symbol (tokens after : List Token) :
    name? (tokens ++ .symbol :: after) =
      (name? tokens).map fun read => (read.1, read.2 ++ .symbol :: after) := by
  rcases tokens with _ | ⟨_ | _ | _ | _, _ | ⟨chars | _ | _ | _, tokens⟩⟩
  case cons.space.cons.word =>
    -- a symbol is no word, so it does not change whether an `AS` is passed over
    by_cases h : chars = ['A', 'S'] ∧ ∃ name rest, tokens = .space :: .word name :: rest
    · obtain ⟨rfl, name, rest, rfl⟩ := h
      rfl
    · have h' : ¬(chars = ['A', 'S'] ∧
          ∃ name rest, tokens ++ .symbol :: after = .space :: .word name :: rest) := by
        rintro ⟨has, name, rest, hnext⟩
        obtain ⟨rest', htokens, -⟩ := append_symbol_eq_space_word.1 hnext
        exact h ⟨has, name, rest', htokens⟩
      rw [List.cons_append, List.cons_append, name?_word h, name?_word h', Option.map_some]
  all_goals rfl

theorem clause?_append_symbol (tokens after : List Token) :
    clause? (tokens ++ .symbol :: after) =
      (clause? tokens).map fun read => (read.1, read.2 ++ .symbol :: after) := by
  rw [clause?_eq, clause?_eq, table?_append_symbol]
  cases table? tokens with
  | none => rfl
  | some first =>
    simp only [Option.map_some, Option.bind_some, name?_append_symbol]
    cases name? first.2 with
    | none => rfl
    | some second => rfl

theorem bindingsOf_append_symbol (tokens after : List Token) :
    bindingsOf (tokens ++ .symbol :: after) = bindingsOf tokens ++ bindingsOf after := by
  fun_induction bindingsOf tokens with
  | case1 chars rest hkeyword binding behind hclause _ ih =>
    have hread := clause?_append_symbol rest after
    rw [hclause, Option.map_some] at hread
    rw [List.cons_append, bindingsOf_clause hkeyword hread, ih, List.cons_append]
  | case2 chars rest hkeyword hclause ih =>
    have hread := clause?_append_symbol rest after
    rw [hclause, Option.map_none] at hread
    rw [List.cons_append, bindingsOf_no_clause (by simp [hread]), ih]
  | case3 chars rest hkeyword ih =>
    rw [List.cons_append, bindingsOf_no_clause (by simp [hkeyword]), ih]
  | case4 token rest hother ih => rw [List.cons_append, bindingsOf_of_ne_word hother, ih]
  | case5 => rw [List.nil_append, bindingsOf_of_ne_word (by simp), List.nil_append]

/-! ### Texts with a symbol between them -/

/-- A symbol between two texts separates their bindings, and a clause that it cuts off is read as it
is at the end of a text. -/
theorem bindings_append_symbol {s : Char} (hword : isWordChar s = false)
    (hblank : isBlank s = false) (hhash : s ≠ '#') (a b : String) :
    bindings (a.push s ++ b) = bindings a ++ bindings b ∧
      (clause? (Token.ofText (a.push s ++ b).toList)).map Prod.fst =
        (clause? (Token.ofText a.toList)).map Prod.fst := by
  have htokens : Token.ofText (a.push s ++ b).toList =
      Token.ofText a.toList ++ .symbol :: Token.ofText b.toList := by
    rw [String.toList_append, String.toList_push, List.append_assoc]
    exact ofText_append_symbol (.symbol hword hblank hhash) a.toList
  constructor
  · rw [bindings, htokens, bindingsOf_append_symbol, bindings, bindings]
  · rw [htokens, clause?_append_symbol, Option.map_map]
    rfl

theorem bindings_append_symbol_semicolon :
    bindings ("FROM T1 AS".push ';' ++ "x FROM T2 y") = [⟨"AS", "T1"⟩, ⟨"y", "T2"⟩] := by
  rw [(bindings_append_symbol (by decide) (by decide) (by decide) _ _).1]
  decide +kernel

end Codename.Alias
