import Monomorph.Cli.Program
import Monomorph.Machine

/-!
# The entry point

Starts the tool in the directory and with the environment of the process, prints what it says, and
ends with its code.
-/

open Monomorph

/-- The value of a variable of the environment; one that is not set counts as empty. -/
def variableNamed (name : String) : IO Text := do
  return Text.ofString ((← IO.getEnv name).getD "")

def main (args : List String) : IO UInt32 := do
  let stdout ← IO.getStdout
  let stderr ← IO.getStderr
  let env : Cli.Environment :=
    { cwd := Text.ofString (← IO.currentDir).toString
      user := { cacheHome := ← variableNamed "XDG_CACHE_HOME", home := ← variableNamed "HOME" }
      terminal := ← stdout.isTty }
  let (code, console) ← (Cli.run env (args.map Text.ofString) : IO (Nat × Cli.Console))
  stdout.write ⟨console.out.toArray⟩
  stderr.write ⟨console.err.toArray⟩
  return code.toUInt32
