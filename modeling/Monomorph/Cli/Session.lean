import Monomorph.Cli.Shell

/-!
# Sessions

What the common flags set up before a command and take down behind it: colours, profiles and the
trace. Profiles are files whose contents belong to whoever runs the tool, so that a session only
makes them.
-/

namespace Monomorph.Cli

def colours (env : Environment) (a : Arguments) : Except Error Bool :=
  let value := (a.text? "color").getD "auto"
  let word := value.lower
  if word = "on" then .ok true
  else if word = "off" then .ok false
  else if word = "auto" then .ok env.terminal
  else .error (.colour value)

inductive Style where
  | success
  | faint
  | warning

def Style.codes : Style → Text
  | .success => "32;1"
  | .faint => "2"
  | .warning => "33"

/-- What switches a terminal to a style. -/
def escapeTo (codes : Text) : Text := [27, 91] ++ codes ++ [109]

def styled (colour : Bool) (s : Style) (t : Text) : Text :=
  if colour then escapeTo s.codes ++ t ++ escapeTo "0" else t

/-- The level of the trace; a file without a level asks for phases. -/
def traceLevel (a : Arguments) : Except Error Trace.Level := do
  let level ← (Trace.Level.parse ((a.text? "trace-level").getD "off")).mapError .traceLevel
  return if level = .off && (a.text? "trace").getD [] ≠ [] then .phase else level

/-- The file that a path for the trace names; nothing and a dash are the errors. -/
def traceFile? (path : Text) : Option Text := if path = [] || path = "-" then none else some path

variable {m : Type → Type} [Monad m] [Host m]

namespace Session

def makeProfile (a : Arguments) (flag what : Text) : ExceptT Error m Unit :=
  match a.text? flag with
  | none | some [] => pure ()
  | some path => ExceptT.adapt (.profile what) (Host.create path)

def endProfile (a : Arguments) : ExceptT Error m Unit := makeProfile a "mem-profile" "heap profile"

/-- Makes the profiles that are due at the start. When the second one fails, what is due at the end
is done at once. -/
def startProfiles (a : Arguments) : Shell m Unit := do
  Shell.ofHost id (makeProfile a "cpu-profile" "cpu profile")
  match ← Shell.outcome (makeProfile a "runtime-trace" "runtime trace") with
  | .ok _ => return
  | .error e => do
    let _ ← Shell.outcome (endProfile a)
    throw e

/-- Ends the profiles; a failure is said and changes nothing else. -/
def stopProfiles (a : Arguments) : Shell m Unit := do
  match ← Shell.outcome (endProfile a) with
  | .ok _ => return
  | .error e => Shell.complain (Text.line ("profiling: " ++ e.message))

def startTrace (a : Arguments) : Shell m Unit := do
  let level ← Shell.ofExcept id (traceLevel a)
  if level = .off then return
  let storage ← Shell.ofExcept .traceStorage
    (Trace.Storage.parse ((a.text? "trace-mode").getD "stream"))
  let path := (a.text? "trace").getD []
  let tracer ← Shell.ofExcept .traceStorage
    (Trace.Tracer.new level storage .auto path ((a.int? "trace-ring-size").getD 4096))
  let file := if tracer.writers.isEmpty then none else traceFile? path
  match file with
  | none => pure ()
  | some path => Shell.ofHost .traceOutput (Host.create path)
  modify fun c => { c with tracer, traceFile := file }

/-- Writes the trace to its file. A file that takes no more loses it. -/
def stopTrace : Shell m Unit := do
  let c ← get
  match c.traceFile with
  | none => return
  | some path => do
    let _ ← Shell.outcome (Host.write path c.tracer.output)

/-- Sets up what the flags ask for and says whether output is coloured. When the trace fails, the
profiles are ended. -/
def start (env : Environment) (a : Arguments) : Shell m Bool := do
  let colour ← Shell.ofExcept id (colours env a)
  startProfiles a
  tryCatch (startTrace a) fun e => do
    stopProfiles a
    throw e
  return colour

def stop (a : Arguments) : Shell m Unit := do
  stopTrace
  stopProfiles a

end Session

end Monomorph.Cli
