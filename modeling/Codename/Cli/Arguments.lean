import Codename.Cli.Part
import Codename.Session.Config

/-!
# Command lines

What a command line asks for. Some options can stand on both sides of the command name; behind it
they win. A variable of the environment stands in for an option that a side does not give, as if it
were given there.

## Main definitions

* `Command`, `Arguments` — what is asked for.
* `Environment` — the variables that matter.
* `parse` — reads a command line.
-/

namespace Codename.Cli

/-- The variables of the environment that matter. -/
structure Environment where
  catalog? : Option String
  state? : Option String
  home : Home
  deriving Repr, DecidableEq

/-- The text that a command works on and the mapping that it uses. -/
structure Input where
  /-- The file of the text. Without it the text is read from the standard input. -/
  file? : Option String
  schema? : Option String
  /-- The file of a mapping to use in place of the catalog. -/
  mapping? : Option String
  deriving Repr, DecidableEq

/-- A command with what it needs. -/
inductive Command where
  | schemas
  | select (name : String)
  | encrypt (input : Input) (output? : Option String)
  | decrypt (input : Input) (output? : Option String)
  | check (input : Input) (words json : Bool)
  deriving Repr, DecidableEq

/-- A whole command line. -/
structure Arguments where
  config : Config
  command : Command
  deriving Repr, DecidableEq

/-- Whether one side of the command line is consistent in itself and with the environment, which
gives each side the options that it lacks. -/
def Part.isConsistent (environment : Environment) (part : Part) : Bool :=
  let given (setting : Setting) (fallback? : Option String) : Option String :=
    (part.value? setting).or fallback?
  (given .catalog environment.catalog?).all (!·.isEmpty) &&
    (given .state environment.state?).all (!·.isEmpty) &&
    !(part.has .noPersist && (given .state environment.state?).isSome) &&
    !(part.has .schema && part.has .mapping) &&
    (!part.has .json || part.has .words)

/-- The configuration that both sides of a command line ask for together. -/
def configOf (environment : Environment) (program command : Part) : Config :=
  let given (setting : Setting) (fallback? : Option String) : Option String :=
    ((command.value? setting).or (program.value? setting)).or fallback?
  let catalog := (given .catalog environment.catalog?).getD Config.defaultCatalog
  if program.has .noPersist || command.has .noPersist then .inMemory catalog
  else
    match given .state environment.state? with
    | some state => ⟨catalog, some state⟩
    | none => .ofCatalog environment.home catalog

/-- The command with what stands behind its name. -/
def commandOf (verb : Verb) (part : Part) : Except Halt Command :=
  let input : Input := ⟨part.word?, part.value? .schema, part.value? .mapping⟩
  match verb with
  | .schemas => .ok .schemas
  | .select =>
    match part.word? with
    | some name => .ok (.select name)
    | none => .error .misuse
  | .encrypt => .ok (.encrypt input (part.value? .output))
  | .decrypt => .ok (.decrypt input (part.value? .output))
  | .check => .ok (.check input (part.has .words) (part.has .json))

/-- Whether the words after `help` name a command. -/
def namesCommand : List String → Bool
  | [] => true
  | [name] => name = "help" || (Verb.ofName? name).isSome
  | _ => false

/-- Reads a command line. -/
def parse (environment : Environment) (arguments : List String) : Except Halt Arguments := do
  match ← scanProgram {} arguments with
  | (_, []) => .error .misuse
  | (program, name :: rest) =>
    if name = "help" then .error (if namesCommand rest then .help else .misuse)
    else
      match Verb.ofName? name with
      | none => .error .misuse
      | some verb =>
        let part ← scanCommand verb {} rest
        if program.isConsistent environment && part.isConsistent environment then
          return ⟨configOf environment program part, ← commandOf verb part⟩
        else .error .misuse

end Codename.Cli
