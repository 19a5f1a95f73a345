import Codename.Cli.Spec

/-!
# Sides of a command line

A command line has options in front of the name of its command, and options and words behind it.
Each side is read from left to right. Options have their value attached or in the next argument;
options of one letter can be written as a group.

## Main definitions

* `Part` — what stands on one side.
* `Halt` — why a command line is not carried out.
* `scanProgram`, `scanCommand` — read the two sides.
-/

namespace Codename.Cli

/-- Why a command line is not carried out. -/
inductive Halt where
  /-- It is not well formed. -/
  | misuse
  /-- It asks for help. -/
  | help
  /-- It asks for the version. -/
  | version
  deriving Repr, DecidableEq

/-- One side of a command line: the options with their values, and the word. -/
structure Part where
  settings : List (Setting × String) := []
  word? : Option String := none
  deriving Repr, DecidableEq

namespace Part

/-- The value of an option; that of a switch is empty. -/
def value? (part : Part) (setting : Setting) : Option String :=
  (part.settings.find? (·.1 == setting)).map Prod.snd

def has (part : Part) (setting : Setting) : Bool :=
  (part.value? setting).isSome

/-- Whether the text can be taken as a value. -/
def accepts (taking : Taking) (value : String) : Bool :=
  match taking with
  | .nothing => value.isEmpty
  | .text => true
  | .path => !value.isEmpty

/-- Adds an option. It can be given only once, and some end the reading at once. -/
def add (part : Part) (spec : Spec) (value : String) : Except Halt Part :=
  if spec.setting = .help then .error .help
  else if spec.setting = .version then .error .version
  else if part.has spec.setting || !accepts spec.taking value then .error .misuse
  else .ok { part with settings := part.settings ++ [(spec.setting, value)] }

/-- Adds a word. There is place for one, and only for some commands. -/
def addWord (part : Part) (taking : Taking) (word : String) : Except Halt Part :=
  if taking = .nothing || part.word?.isSome || !accepts taking word then .error .misuse
  else .ok { part with word? := some word }

end Part

/-- Whether an argument is written like an option. A single dash is not. -/
def isOption (argument : String) : Bool :=
  match argument.toList with
  | '-' :: _ :: _ => true
  | _ => false

/-- The value that follows an option as an argument of its own, and the arguments behind it. -/
def takeValue : List String → Except Halt (String × List String)
  | [] => .error .misuse
  | argument :: rest => if isOption argument then .error .misuse else .ok (argument, rest)

/-- Adds an option with the value that is attached to it, or else the next argument as its value.
A switch has no value. -/
def addOption (part : Part) (spec : Spec) (attached? : Option String) (rest : List String) :
    Except Halt (Part × List String) :=
  match attached?, spec.taking with
  | none, .nothing => (part.add spec "").map (·, rest)
  | some _, .nothing => .error .misuse
  | some value, _ => (part.add spec value).map (·, rest)
  | none, _ =>
    match takeValue rest with
    | .error halt => .error halt
    | .ok (value, rest) => (part.add spec value).map (·, rest)

/-- The value in the rest of a group of letters, which a `=` may introduce. -/
def attachedLetters : List Char → Option String
  | [] => none
  | '=' :: value => some (String.ofList value)
  | value => some (String.ofList value)

/-- Reads the options of a group of letters such as `-vs`. The first of them that takes a value has
the rest of the group attached. -/
def scanLetters (specs : List Spec) (part : Part) (rest : List String) :
    List Char → Except Halt (Part × List String)
  | [] => .ok (part, rest)
  | letter :: letters =>
    match specs.find? (·.short? == some letter) with
    | none => .error .misuse
    | some spec =>
      if spec.taking = .nothing then
        match part.add spec "" with
        | .error halt => .error halt
        | .ok part => scanLetters specs part rest letters
      else addOption part spec (attachedLetters letters) rest

/-- The value behind the `=` of a written option. -/
def attachedValue (written : List Char) : Option String :=
  match written.dropWhile (· ≠ '=') with
  | [] => none
  | _ :: value => some (String.ofList value)

/-- Reads an option such as `--schema`, which may have a value attached by a `=`. -/
def scanLong (specs : List Spec) (part : Part) (rest : List String) (written : List Char) :
    Except Halt (Part × List String) :=
  match specs.find? (·.long.toList == written.takeWhile (· ≠ '=')) with
  | none => .error .misuse
  | some spec => addOption part spec (attachedValue written) rest

theorem length_le_of_takeValue {arguments rest : List String} {value : String}
    (h : takeValue arguments = .ok (value, rest)) : rest.length ≤ arguments.length := by
  unfold takeValue at h
  split at h
  · cases h
  · split at h
    · cases h
    · cases h
      simp

theorem eq_of_map_pair {added : Except Halt Part} {arguments rest : List String} {final : Part}
    (h : added.map (·, arguments) = .ok (final, rest)) : rest = arguments := by
  cases added with
  | error halt => cases h
  | ok part => cases h; rfl

theorem length_le_of_addOption {part final : Part} {spec : Spec} {attached? : Option String}
    {arguments rest : List String}
    (h : addOption part spec attached? arguments = .ok (final, rest)) :
    rest.length ≤ arguments.length := by
  unfold addOption at h
  split at h
  · exact Nat.le_of_eq (congrArg _ (eq_of_map_pair h))
  · cases h
  · exact Nat.le_of_eq (congrArg _ (eq_of_map_pair h))
  · split at h
    · cases h
    · next htake =>
      rw [eq_of_map_pair h]
      exact length_le_of_takeValue htake

theorem length_le_of_scanLetters {specs : List Spec} {part final : Part}
    {arguments rest : List String} {letters : List Char}
    (h : scanLetters specs part arguments letters = .ok (final, rest)) :
    rest.length ≤ arguments.length := by
  fun_induction scanLetters specs part arguments letters with
  | case1 => cases h; exact Nat.le_refl _
  | case4 _ _ _ _ _ _ _ _ ih => exact ih h
  | case5 => exact length_le_of_addOption h
  | _ => cases h

theorem length_le_of_scanLong {specs : List Spec} {part final : Part}
    {arguments rest : List String} {written : List Char}
    (h : scanLong specs part arguments written = .ok (final, rest)) :
    rest.length ≤ arguments.length := by
  unfold scanLong at h
  split at h
  · cases h
  · exact length_le_of_addOption h

/-- Reads the options in front of the command name, and stops there. -/
def scanProgram (part : Part) (arguments : List String) : Except Halt (Part × List String) :=
  match arguments with
  | [] => .ok (part, [])
  | argument :: rest =>
    match argument.toList with
    | '-' :: '-' :: [] => .error .misuse
    | '-' :: '-' :: written =>
      match h : scanLong programSpecs part rest written with
      | .error halt => .error halt
      | .ok (part, after) =>
        have := length_le_of_scanLong h
        scanProgram part after
    | '-' :: letter :: letters =>
      match h : scanLetters programSpecs part rest (letter :: letters) with
      | .error halt => .error halt
      | .ok (part, after) =>
        have := length_le_of_scanLetters h
        scanProgram part after
    | _ => .ok (part, argument :: rest)
termination_by arguments.length
decreasing_by all_goals simp only [List.length_cons]; omega

/-- Reads the options and words behind the command name. After `--` there are only words. -/
def scanCommand (verb : Verb) (part : Part) (arguments : List String) : Except Halt Part :=
  match arguments with
  | [] => .ok part
  | argument :: rest =>
    match argument.toList with
    | '-' :: '-' :: [] => rest.foldlM (·.addWord verb.taking) part
    | '-' :: '-' :: written =>
      match h : scanLong verb.specs part rest written with
      | .error halt => .error halt
      | .ok (part, after) =>
        have := length_le_of_scanLong h
        scanCommand verb part after
    | '-' :: letter :: letters =>
      match h : scanLetters verb.specs part rest (letter :: letters) with
      | .error halt => .error halt
      | .ok (part, after) =>
        have := length_le_of_scanLetters h
        scanCommand verb part after
    | _ =>
      match part.addWord verb.taking argument with
      | .error halt => .error halt
      | .ok part => scanCommand verb part rest
termination_by arguments.length
decreasing_by all_goals simp only [List.length_cons]; omega

end Codename.Cli
