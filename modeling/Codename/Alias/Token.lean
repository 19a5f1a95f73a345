import Codename.Text.Word

/-!
# Tokens of a query

For the search for table aliases a query is a row of words, white space, `#` signs and other
symbols. Runs of word characters make one token, as do runs of white space; any other character is
a token of its own.

## Main definitions

* `Token`, `Token.ofText` — the tokens of a text.
-/

namespace Codename.Alias

open Codename.Text

/-- A token of a query. -/
inductive Token where
  /-- A maximal run of word characters. -/
  | word (chars : List Char)
  /-- The sign `#`, which starts the name of a temporary table. -/
  | hash
  /-- A maximal run of white space. -/
  | space
  /-- Any other character. -/
  | symbol
  deriving Repr, DecidableEq

namespace Token

/-- Puts a character in front of a row of tokens; it joins the first of them if both belong to one
word or to one run of white space. -/
def push (c : Char) (tokens : List Token) : List Token :=
  if isWordChar c then
    match tokens with
    | .word chars :: rest => .word (c :: chars) :: rest
    | _ => .word [c] :: tokens
  else if isBlank c then
    match tokens with
    | .space :: _ => tokens
    | _ => .space :: tokens
  else if c = '#' then .hash :: tokens
  else .symbol :: tokens

/-- The tokens of a text, from left to right. -/
def ofText (text : List Char) : List Token :=
  text.foldr push []

@[simp] theorem ofText_nil : ofText [] = [] := rfl

@[simp] theorem ofText_cons (c : Char) (text : List Char) :
    ofText (c :: text) = push c (ofText text) := rfl

end Token

end Codename.Alias
