/-!
# Options and commands

The options that a command line can have and how they are written, and the commands with the options
that each of them takes.

## Main definitions

* `Setting`, `Spec` — the options, and how they are written.
* `Verb` — the commands.
-/

namespace Codename.Cli

/-- The meaning of an option. -/
inductive Setting where
  | catalog
  | state
  | noPersist
  | verbose
  | schema
  | mapping
  | output
  | words
  | json
  | help
  | version
  deriving Repr, DecidableEq

/-- What an option takes. -/
inductive Taking where
  /-- Nothing: the option is a switch. -/
  | nothing
  /-- Any text. -/
  | text
  /-- A path, which cannot be empty. -/
  | path
  deriving Repr, DecidableEq

/-- How an option is written. -/
structure Spec where
  setting : Setting
  long : String
  short? : Option Char
  taking : Taking
  deriving Repr, DecidableEq

/-- The options that can stand on both sides of the command name. -/
def sharedSpecs : List Spec := [
  ⟨.catalog, "catalog", none, .path⟩,
  ⟨.state, "state", none, .path⟩,
  ⟨.noPersist, "no-persist", none, .nothing⟩,
  ⟨.verbose, "verbose", some 'v', .nothing⟩,
  ⟨.help, "help", some 'h', .nothing⟩]

/-- The options in front of the command name. -/
def programSpecs : List Spec :=
  sharedSpecs ++ [⟨.version, "version", some 'V', .nothing⟩]

/-- The options that choose the mapping of a text. -/
def mappingSpecs : List Spec := [
  ⟨.schema, "schema", some 's', .text⟩,
  ⟨.mapping, "mapping", some 'm', .path⟩]

inductive Verb where
  | schemas
  | select
  | encrypt
  | decrypt
  | check
  deriving Repr, DecidableEq

namespace Verb

def ofName? : String → Option Verb
  | "schemas" => some .schemas
  | "select" => some .select
  | "encrypt" => some .encrypt
  | "decrypt" => some .decrypt
  | "check" => some .check
  | _ => none

/-- The options behind the command name. -/
def specs : Verb → List Spec
  | .schemas | .select => sharedSpecs
  | .encrypt | .decrypt =>
    sharedSpecs ++ mappingSpecs ++ [⟨.output, "output", some 'o', .path⟩]
  | .check =>
    sharedSpecs ++ mappingSpecs ++
      [⟨.words, "words", none, .nothing⟩, ⟨.json, "json", none, .nothing⟩]

/-- What the one word behind the command name is. -/
def taking : Verb → Taking
  | .schemas => .nothing
  | .select => .text
  | .encrypt | .decrypt | .check => .path

end Verb

end Codename.Cli
