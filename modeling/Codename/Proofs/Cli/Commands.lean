import Codename.Cli.Run
import Codename.Proofs.Session.Files

/-!
# Commands on a file tree

A command that uses a mapping has the same course whatever it uses the mapping for and wherever it
finds it: it reads its text, then it finds the mapping, and only then it may write a file. If one of
the two is missing, it fails and has written nothing.

## Main definitions

* `inputText` — the text that a command works on.
* `Use` — what a mapping is used for.

## Main statements

* `Use.run_command` — the course of a command that uses a mapping.
-/

namespace Codename.Cli

open Codename.Files (FileError Host Tree)
open Codename.Session (Call Service Situation)

/-- The text of a file, or else of the standard input. -/
def inputText (stdin : ByteArray) (tree : Tree) : Option String → Except FileError String
  | some path => tree.read path
  | none =>
    match String.fromUTF8? stdin with
    | some text => .ok text
    | none => .error .notText

/-- What a mapping is used for. -/
inductive Use where
  | encrypt (output? : Option String)
  | decrypt (output? : Option String)
  | check (words json : Bool)
  deriving DecidableEq

namespace Use

/-- The command for a use. -/
def command (input : Input) : Use → Command
  | .encrypt output? => .encrypt input output?
  | .decrypt output? => .decrypt input output?
  | .check words json => .check input words json

def isCheck : Use → Bool
  | .check _ _ => true
  | _ => false

/-- What a command does with the mapping and the text. -/
def finish {m : Type → Type} [Monad m] (host : Host m) (mapping : Mapping) (text : String) :
    Use → m Ending
  | .encrypt output? => writeText host output? (mapping.encrypt text)
  | .decrypt output? => writeText host output? (mapping.annotate text)
  | .check words json =>
    let outcome := mapping.check ⟨words⟩ text
    return {
      out := outcomeText json outcome
      failure? := if outcome.isOk then none else some .plainNames }

end Use

variable {stdin : ByteArray} {service : Service (StateM Tree)} {input : Input} {tree : Tree}
  {environment : Environment} {arguments : List String} {asked : Arguments}

/-! ### The steps of a command -/

theorem bind_on {α β : Type} (action : StateM Tree α) (next : α → StateM Tree β) (tree : Tree) :
    (action >>= next) tree = next (action tree).1 (action tree).2 :=
  rfl

theorem readText_on (stdin : ByteArray) (input : Input) (tree : Tree) :
    readText (Tree.host stdin) input tree =
      ((inputText stdin tree input.file?).mapError .file, tree) := by
  cases hfile : input.file? with
  | some path =>
    simp only [readText, hfile]
    rfl
  | none =>
    simp only [readText, hfile]
    rfl

theorem callFresh_on {α : Type} (call : Call (StateM Tree) α) (tree : Tree) :
    callFresh call tree =
      ((call.on (.start tree)).1.mapError .session, (call.on (.start tree)).2.world) :=
  rfl

theorem findMapping_on (stdin : ByteArray) (service : Service (StateM Tree)) (input : Input)
    (tree : Tree) :
    findMapping (Tree.host stdin) service input tree =
      match input.mapping? with
      | some path => ((Mapping.ofContent (tree.read path)).mapError .mapping, tree)
      | none => callFresh (service.mapping input.schema?) tree := by
  cases hmapping : input.mapping? with
  | some path =>
    simp only [findMapping, hmapping]
    rfl
  | none => simp only [findMapping, hmapping]

/-- A check of a text that is not empty finds the mapping first. -/
theorem findOutcome_on {text : String} (htext : text ≠ "") (options : Check.Options) :
    findOutcome (Tree.host stdin) service input options text tree =
      ((findMapping (Tree.host stdin) service input tree).1.map (·.check options text),
        (findMapping (Tree.host stdin) service input tree).2) := by
  cases hmapping : input.mapping? with
  | some path =>
    simp only [findOutcome, hmapping]
    rfl
  | none =>
    have hcheck : service.check input.schema? options text =
        (·.check options text) <$> service.mapping input.schema? := by
      rw [Service.check, if_neg (by simpa using htext)]
      rfl
    simp only [findOutcome, hmapping]
    rw [findMapping_on, hmapping, hcheck, callFresh_on, callFresh_on, Call.on_map]
    cases ((service.mapping input.schema?).on (.start tree)).1 with
    | error problem => rfl
    | ok mapping => rfl

/-! ### The course of a command -/

theorem runTransform_on (transform : Mapping → String → String) (output? : Option String) :
    runTransform (Tree.host stdin) service transform input output? tree =
      match inputText stdin tree input.file? with
      | .error error => (.ofFailure (.file error), tree)
      | .ok text =>
        match findMapping (Tree.host stdin) service input tree with
        | (.error failure, after) => (.ofFailure failure, after)
        | (.ok mapping, after) =>
          writeText (Tree.host stdin) output? (transform mapping text) after := by
  rw [runTransform, bind_on, readText_on]
  cases inputText stdin tree input.file? with
  | error error => rfl
  | ok text =>
    refine (bind_on _ _ _).trans ?_
    dsimp only
    rcases findMapping (Tree.host stdin) service input tree with ⟨failure | mapping, after⟩
    · rfl
    · rfl

theorem runCheck_on (words json : Bool) (htext : inputText stdin tree input.file? ≠ .ok "") :
    runCheck (Tree.host stdin) service input words json tree =
      match inputText stdin tree input.file? with
      | .error error => (.ofFailure (.file error), tree)
      | .ok text =>
        match findMapping (Tree.host stdin) service input tree with
        | (.error failure, after) => (.ofFailure failure, after)
        | (.ok mapping, after) =>
          (Use.check words json).finish (Tree.host stdin) mapping text after := by
  rw [runCheck, bind_on, readText_on]
  cases hread : inputText stdin tree input.file? with
  | error error => rfl
  | ok text =>
    have hne : text ≠ "" := by
      rintro rfl
      exact htext hread
    refine (bind_on _ _ _).trans ?_
    dsimp only
    rw [findOutcome_on hne]
    rcases findMapping (Tree.host stdin) service input tree with ⟨failure | mapping, after⟩
    · rfl
    · rfl

/-- A command reads its text, then finds its mapping, and then does with them what it is for. -/
theorem Use.run_command (use : Use)
    (htext : use.isCheck = true → inputText stdin tree input.file? ≠ .ok "") :
    (use.command input).run (Tree.host stdin) service tree =
      match inputText stdin tree input.file? with
      | .error error => (.ofFailure (.file error), tree)
      | .ok text =>
        match findMapping (Tree.host stdin) service input tree with
        | (.error failure, after) => (.ofFailure failure, after)
        | (.ok mapping, after) => use.finish (Tree.host stdin) mapping text after := by
  cases use with
  | encrypt output? => exact runTransform_on Mapping.encrypt output?
  | decrypt output? => exact runTransform_on Mapping.annotate output?
  | check words json => exact runCheck_on words json (htext rfl)

theorem run_on (stdin : ByteArray) (tree : Tree) (h : parse environment arguments = .ok asked) :
    run (Tree.host stdin) environment arguments tree =
      let ended := asked.command.run (Tree.host stdin)
        (Service.ofConfig (Tree.host stdin) asked.config) tree
      (ended.1.output asked.config.catalog, ended.2) := by
  rw [run, h]
  rfl

end Codename.Cli
