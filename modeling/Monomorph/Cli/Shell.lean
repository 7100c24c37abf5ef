import Monomorph.Cli.Command
import Monomorph.Run.Basic
import Monomorph.Settings

/-!
# The shell around a command

What a command finds around it and what it says: its surroundings, the two texts that it prints,
and the errors that end it. A command may trace its work, and the trace goes on from one piece of
work to the next.
-/

namespace Monomorph.Cli

structure Environment where
  cwd : Text
  user : UserDirs := {}
  /-- Whether the output goes to a terminal. -/
  terminal : Bool := false

inductive Error where
  | usage (error : UsageError)
  | argumentCount (want got : Nat)
  | colour (value : Text)
  | profile (what : Text) (error : FileError)
  | traceLevel (cause : Text)
  | traceStorage (cause : Text)
  | traceOutput (error : FileError)
  | watching (value : Text)
  | format (value : Text)
  | timings (cause : Text)
  | manifest (error : ManifestError)
  | settings (error : SettingsError)
  | selection (error : Selection.Error)
  | run (error : RunError)
  | stage (error : StageError)
  | load (error : LoadError)

def unexpected (flag value expected : Text) : Text :=
  "invalid --" ++ flag ++ " value " ++ value.quoted ++ " (expected " ++ expected ++ ")"

def Error.message : Error → Text
  | .usage e => e.message
  | .argumentCount want got =>
    "accepts " ++ Text.ofNat want ++ " arg(s), received " ++ Text.ofNat got
  | .colour value => unexpected "color" value "auto|on|off"
  | .profile what e => what ++ ": " ++ e.message
  | .traceLevel cause => "invalid trace level: " ++ cause
  | .traceStorage cause => "invalid trace mode: " ++ cause
  | .traceOutput e => "failed to create tracer: failed to open trace output: " ++ e.message
  | .watching value => unexpected "ui" value "auto|on|off"
  | .format value => "unsupported format " ++ value.quoted ++ " (must be pretty or json)"
  | .timings cause => cause
  | .manifest e => e.message
  | .settings e => e.message
  | .selection e => e.message
  | .run e => e.message
  | .stage e => e.message
  | .load e => e.message

/-- What a command has said, and its trace. -/
structure Console where
  out : Text := []
  err : Text := []
  tracer : Trace.Tracer := .nop
  /-- The file that the trace is written to; without one it goes to the errors. -/
  traceFile : Option Text := none

abbrev Shell (m : Type → Type) (α : Type) := ExceptT Error (StateT Console m) α

namespace Shell

variable {m : Type → Type} [Monad m] {ε α : Type}

def print (t : Text) : Shell m Unit := modify fun c => { c with out := c.out ++ t }

/-- Prints a text among the errors. -/
def complain (t : Text) : Shell m Unit := modify fun c => { c with err := c.err ++ t }

/-- Work of the host that cannot fail. -/
def sure (w : m α) : Shell m α := ExceptT.lift (StateT.lift w)

def outcome (w : ExceptT ε m α) : Shell m (Except ε α) := sure w.run

/-- Work of the host whose failure ends the command. -/
def ofHost (wrap : ε → Error) (w : ExceptT ε m α) : Shell m α := do
  match ← outcome w with
  | .ok a => return a
  | .error e => throw (wrap e)

/-- A result whose failure ends the command. -/
def ofExcept (wrap : ε → Error) (r : Except ε α) : Shell m α := ExceptT.mk (pure (r.mapError wrap))

/-- Does work under a monitor that goes on with the trace of the command. What the trace adds shows
among the errors unless it has a file. -/
def watch (w : Work m ε α) : Shell m (Except ε α × Monitor) := do
  let c ← get
  let (result, monitor) ← sure (w.run.run { tracer := c.tracer })
  let added := monitor.tracer.output.drop c.tracer.output.length
  modify fun c => { c with tracer := monitor.tracer }
  if c.traceFile.isNone then complain added
  return (result, monitor)

/-- Traced work whose failure ends the command. -/
def traced (wrap : ε → Error) (w : Work m ε α) : Shell m α := do
  match ← watch w with
  | (.ok a, _) => return a
  | (.error e, _) => throw (wrap e)

end Shell

end Monomorph.Cli
