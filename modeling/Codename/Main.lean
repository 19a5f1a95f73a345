import Codename.Cli.Run

/-!
# The program

The command line of the program, run on the files of the machine.
-/

namespace Codename.Main

open Codename.Files (FileError Host)

/-- The file error that a failure of the machine is, told by its number where the kind is shared. -/
def fileError (error : IO.Error) : FileError :=
  match error with
  | .noFileOrDirectory .. => .notFound
  | .alreadyExists .. => .alreadyExists
  | .inappropriateType _ 20 _ => .notDirectory
  | .inappropriateType _ 21 _ => .isDirectory
  | error => .other error.toString

/-- Carries out an action and returns its failure as a value. -/
def attempt {α : Type} (action : IO α) : IO (Except FileError α) := do
  try return .ok (← action)
  catch error => return .error (fileError error)

/-- The text that bytes encode. -/
def decode (content : ByteArray) : Except FileError String :=
  match String.fromUTF8? content with
  | some text => .ok text
  | none => .error .notText

def machine : Host IO where
  read path := return (← attempt (IO.FS.readBinFile path)).bind decode
  write path text := attempt (IO.FS.writeFile path text)
  makeDirectories path :=
    if path.isEmpty then return .ok () else attempt (IO.FS.createDirAll path)
  readInput := return (← attempt (← IO.getStdin).readBinToEnd).bind decode

def environment : IO Cli.Environment := do
  let home : Home := ⟨← IO.getEnv "HOME", ← IO.getEnv "XDG_CONFIG_HOME"⟩
  return ⟨← IO.getEnv "PSENCRYPT_CATALOG", ← IO.getEnv "PSENCRYPT_STATE", home⟩

end Codename.Main

/-- Runs the command line and ends with its exit code. -/
def main (arguments : List String) : IO UInt32 := do
  let output ← Codename.Cli.run Codename.Main.machine (← Codename.Main.environment) arguments
  (← IO.getStdout).putStr output.out
  (← IO.getStderr).putStr output.err
  return output.code.toUInt32
