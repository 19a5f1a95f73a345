import Codename.Check.Format
import Codename.Cli.Arguments
import Codename.Mapping.File
import Codename.Session.Basic

/-!
# Running a command

A command reads its text, finds its mapping and writes its result. The run is described for any
host, so that it is the same on real files and on a file tree.

## Main definitions

* `Failure` — why a command fails.
* `Output` — what a run leaves: its exit code and what it wrote.
* `Command.run`, `run` — carry out a command and a command line.
-/

namespace Codename.Cli

open Codename.Files (FileError Host)
open Codename.Session (Call Problem Service)

/-- Why a command fails. -/
inductive Failure where
  | session (problem : Problem)
  | mapping (error : Mapping.OpenError)
  | file (error : FileError)
  /-- The checked text holds plain names. -/
  | plainNames
  deriving Repr, DecidableEq

namespace Failure

def message : Failure → String
  | .session problem => problem.message
  | .mapping error => error.message
  | .file error => error.message
  | .plainNames => "Original identifiers found in input"

/-- What is behind a failure, in its own words. -/
def cause? : Failure → Option String
  | .session problem => problem.cause?
  | .mapping error => error.cause?
  | .file _ => none
  | .plainNames => none

/-- A text whose lines after the first are indented like the first. -/
def indentLines (text : List Char) : List Char :=
  text.flatMap fun c => if c = '\n' then "\n    ".toList else [c]

/-- The lines that tell of a failure and of its cause. -/
def report (failure : Failure) : String :=
  s!"Error: {failure.message}\n" ++
    match failure.cause? with
    | some cause => "\nCaused by:\n    " ++ String.ofList (indentLines cause.toList) ++ "\n"
    | none => ""

/-- The line in front of the report that tells where the catalog was looked for, if it could not be
loaded. -/
def warning (catalog : String) : Failure → String
  | .session (.catalogUnavailable _) =>
    s!"WARNING: Failed to load encryption tables! Check the catalog path ({catalog}) " ++
      "or contact support.\n"
  | _ => ""

end Failure

/-- What a run leaves. -/
structure Output where
  code : Nat
  out : String
  err : String
  deriving Repr, DecidableEq

/-- What a command wrote before it ended, and whether it failed. -/
structure Ending where
  out : String := ""
  err : String := ""
  failure? : Option Failure := none
  deriving Repr, DecidableEq

/-- The ending of a command that fails before it writes anything. -/
def Ending.ofFailure (failure : Failure) : Ending :=
  { failure? := some failure }

variable {m : Type → Type} [Monad m]

/-- Carries out a call of a fresh session. -/
def callFresh {α : Type} (call : Call m α) : m (Except Failure α) := do
  let (result, _) ← (call.run).run {}
  return result.mapError .session

/-- The text that a command works on. -/
def readText (host : Host m) (input : Input) : m (Except Failure String) := do
  let text ← match input.file? with
    | some path => host.read path
    | none => host.readInput
  return text.mapError .file

/-- The mapping that a command uses: that in a given file, or that of a schema. -/
def findMapping (host : Host m) (service : Service m) (input : Input) :
    m (Except Failure Mapping) := do
  match input.mapping? with
  | some path => return (← Mapping.fromFile host path).mapError .mapping
  | none => callFresh (service.mapping input.schema?)

/-- The line that lists a schema. The selected one is marked by a star. -/
def schemaLine (selected? : Option Catalog.Entry) (entry : Catalog.Entry) : String :=
  let marker := if selected?.any (·.name == entry.name) then "*" else " "
  let note := if entry.isDefault then " (default)" else ""
  s!"{marker} {entry.name}{note}  {entry.locator}\n"

def runSchemas (service : Service m) : m Ending := do
  let (result, state) ← (service.catalog.run).run {}
  match result with
  | .error problem => return .ofFailure (.session problem)
  | .ok catalog =>
    if catalog.isEmpty then return { out := "  No encryption tables in catalog\n" }
    else return { out := String.join (catalog.entries.map (schemaLine state.selected?)) }

def runSelect (service : Service m) (name : String) : m Ending := do
  match ← callFresh (service.select name) with
  | .error failure => return .ofFailure failure
  | .ok mapping =>
    return { out := s!" SUCCESS: Selected {name} ({mapping.tables.size} tables)\n" }

/-- Writes a text into a file, or else to the standard output. -/
def writeText (host : Host m) (output? : Option String) (text : String) : m Ending := do
  match output? with
  | none => return { out := text }
  | some path =>
    match ← host.write path text with
    | .error error => return .ofFailure (.file error)
    | .ok () => return { err := s!" SUCCESS: Saved to: {path}\n" }

/-- Applies a function of the mapping to a text. The text is read before the mapping is looked for,
and nothing is written unless both are there. -/
def runTransform (host : Host m) (service : Service m) (transform : Mapping → String → String)
    (input : Input) (output? : Option String) : m Ending := do
  match ← readText host input with
  | .error failure => return .ofFailure failure
  | .ok text =>
    match ← findMapping host service input with
    | .error failure => return .ofFailure failure
    | .ok mapping => writeText host output? (transform mapping text)

/-- The outcome of a check. A given mapping is read even if the text is empty. -/
def findOutcome (host : Host m) (service : Service m) (input : Input) (options : Check.Options)
    (text : String) : m (Except Failure Check.Outcome) := do
  match input.mapping? with
  | some _ => return (← findMapping host service input).map (·.check options text)
  | none => callFresh (service.check input.schema? options text)

/-- What a check prints. -/
def outcomeText (json : Bool) : Check.Outcome → String
  | .flag true => " ENCRYPTED\n"
  | .flag false => " NOT ENCRYPTED\n"
  | .listed report =>
    if json then report.toJson.indented ++ "\n"
    else if report.ok then " ENCRYPTED\n"
    else " NOT ENCRYPTED\n" ++ String.join (report.names.map fun name => s!"   {name}\n")

/-- Checks a text. Plain names in it are a failure. -/
def runCheck (host : Host m) (service : Service m) (input : Input) (words json : Bool) :
    m Ending := do
  match ← readText host input with
  | .error failure => return .ofFailure failure
  | .ok text =>
    match ← findOutcome host service input ⟨words⟩ text with
    | .error failure => return .ofFailure failure
    | .ok outcome =>
      return {
        out := outcomeText json outcome
        failure? := if outcome.isOk then none else some .plainNames }

def Command.run (host : Host m) (service : Service m) : Command → m Ending
  | .schemas => runSchemas service
  | .select name => runSelect service name
  | .encrypt input output? => runTransform host service Mapping.encrypt input output?
  | .decrypt input output? => runTransform host service Mapping.annotate input output?
  | .check input words json => runCheck host service input words json

/-- What a run leaves when its command ended. -/
def Ending.output (catalog : String) (ending : Ending) : Output :=
  match ending.failure? with
  | none => ⟨0, ending.out, ending.err⟩
  | some failure => ⟨1, ending.out, ending.err ++ failure.warning catalog ++ failure.report⟩

def versionText : String := "psencrypt 0.1.0\n"

/-- How the program is called. -/
def usageText : String :=
  "Usage: psencrypt [OPTIONS] <COMMAND>\n\n" ++
  "Commands:\n" ++
  "  schemas          List the encryption tables in the catalog\n" ++
  "  select <NAME>    Select the encryption table used when none is given\n" ++
  "  encrypt [INPUT]  Replace original identifiers with encrypted ones\n" ++
  "  decrypt [INPUT]  Annotate encrypted column names with their original names\n" ++
  "  check [INPUT]    Fail if any original identifier is left in the input\n\n" ++
  "Options:\n" ++
  "      --catalog <CATALOG>, --state <STATE>, --no-persist, -v/--verbose, -h/--help, " ++
  "-V/--version\n" ++
  "  encrypt, decrypt, check: -s/--schema <SCHEMA>, -m/--mapping <MAPPING>\n" ++
  "  encrypt, decrypt: -o/--output <OUTPUT>\n" ++
  "  check: --words, --json\n"

/-- What a command line that is not carried out leaves. -/
def Halt.output : Halt → Output
  | .misuse => ⟨2, "", usageText⟩
  | .help => ⟨0, usageText, ""⟩
  | .version => ⟨0, versionText, ""⟩

def run (host : Host m) (environment : Environment) (arguments : List String) : m Output := do
  match parse environment arguments with
  | .error halt => return halt.output
  | .ok asked =>
    let ending ← asked.command.run host (Service.ofConfig host asked.config)
    return ending.output asked.config.catalog

end Codename.Cli
