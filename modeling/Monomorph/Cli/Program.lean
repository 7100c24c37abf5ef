import Monomorph.Board
import Monomorph.Cli.Session
import Monomorph.Outline
import Monomorph.Version

/-!
# The tool

What each command does, and how a list of arguments leads to one of them. A command that fails says
so among the errors and ends with another code. How the pieces of a stage follow each other is left
to a crew here as well.
-/

namespace Monomorph.Cli

/-- How a run may be watched. -/
inductive WatchMode where
  | auto
  | on
  | off
deriving DecidableEq

namespace WatchMode

def word : WatchMode → Text
  | .auto => "auto"
  | .on => "on"
  | .off => "off"

def parse (t : Text) : Except Error WatchMode :=
  let w := t.word
  if w = "" || w = "auto" then .ok .auto
  else if w = "on" then .ok .on
  else if w = "off" then .ok .off
  else .error (.watching t)

def shows (terminal : Bool) : WatchMode → Bool
  | .auto => terminal
  | .on => true
  | .off => false

end WatchMode

variable {m : Type → Type} [Monad m] [Host m]

/-! ## Looking into modules -/

def givenSources (a : Arguments) : Selection.Sources :=
  { paths := a.others, dirs := a.texts "dir", keep := a.texts "include", drop := a.texts "exclude" }

def configuration (env : Environment) (a : Arguments) : Shell m Config := do
  return (← Shell.ofHost .manifest
    (Manifest.configuration env.cwd ((a.text? "config").getD []))).1

def loadSelected (env : Environment) (a : Arguments) (crew : Crew m := .single) :
    Shell m (List Module) := do
  let config ← configuration env a
  let paths ← Shell.ofHost .selection (Selection.choose config.modules (givenSources a))
  let loaded ← Shell.traced .stage (Stage.loadModules 0 paths crew)
  return loaded.map Loaded.module

/-- A called method with the places that call it. -/
def calleeText (r : Registry) (x : CallIndex) (callee : MethodId) (name : Text) : Text :=
  let sites := x.callers callee
  let nameOf (id : MethodId) : Text := ((r.member? id).map Member.ownerName).getD []
  Text.line (name ++ " (" ++ Text.ofNat sites.length ++ " sites)")
    ++ sites.flatMap fun s =>
      Text.line ("  <- " ++ nameOf s.caller ++ " : " ++ s.ref.declaring.fullName)

/-- Lists calls by the method that they call. -/
def index (env : Environment) (a : Arguments) (crew : Crew m := .single) : Shell m Unit := do
  let modules ← loadSelected env a crew
  let r := Registry.ofModules (modules.map some)
  let extractor := if a.isOn "plain" then Extractor.plain else .genericOnly
  let x ← Shell.traced .stage (Stage.indexModules (fun _ => pure ()) r extractor 0 modules crew)
  let wanted := (a.text? "filter").getD []
  Shell.print (x.callees.flatMap fun callee =>
    let name := ((r.member? callee).map Member.ownerName).getD []
    if Text.contains wanted name then calleeText r x callee name else [])

/-- Lists the concrete instances that modules mention. -/
def harvest (env : Environment) (a : Arguments) (crew : Crew m := .single) : Shell m Unit := do
  let modules ← loadSelected env a crew
  let (hs, _) ← Shell.traced .stage
    (Stage.harvestModules (fun _ => pure ()) 0 (modules.map some) none crew)
  Shell.print ((Stage.joined hs).types.flatMap fun t => Text.line t.fullName)

def dump (a : Arguments) : Shell m Unit := do
  let path := a.others.headD []
  let (module, _) ← Shell.ofHost .load (Module.load path)
  if a.isOn "raw" then Shell.print (Text.line ((module.outline path).render 0))
  else Shell.print (module.listing (a.isOn "bodies"))

def version (a : Arguments) : Shell m Unit := do
  let format := (a.text? "format").getD "pretty"
  let hash := a.isOn "hash" || a.isOn "full"
  let date := a.isOn "date" || a.isOn "full"
  let info := BuildInfo.current.clean
  let word := format.lower
  if word = "json" then Shell.print (info.object hash date)
  else if word = "pretty" then Shell.print (info.pretty hash date)
  else throw (.format format)

/-! ## Resolving -/

/-- The flags that stand for configured values. -/
def overrides (a : Arguments) : Overrides :=
  { target := a.text? "target", output := a.text? "out", seeds := a.texts "seed",
    reportDir := a.text? "report-dir", noReport := a.isOn "no-report", noCache := a.isOn "no-cache",
    cacheDir := a.text? "cache-dir", jobs := a.int? "jobs", maxDepth := a.int? "max-depth" }

/-- The name under which the tool keeps its cache. -/
def applicationName : Text := "concretize"

/-- Opens the cache; a run goes on without one. -/
def openCache (env : Environment) (dir : Text) : Shell m (Option PoolCache) := do
  match ← Shell.outcome (PoolCache.openAt env.user applicationName dir) with
  | .ok cache => return some cache
  | .error e => do
    Shell.complain (Text.line ("warning: pool cache disabled: " ++ e.message))
    return none

/-- What a run is asked to do. A dry run writes neither a report nor cache entries. -/
def request (env : Environment) (a : Arguments) (s : Settings) (paths : List Text) :
    Shell m Request := do
  let dryRun := a.isOn "dry-run"
  let cache ← if s.useCache && !dryRun then openCache env s.cacheDir else pure none
  return {
    target := s.target, output := s.output, paths, seeds := s.seeds, cache,
    reportDir := if dryRun then [] else s.reportDir
    maxDepth := s.maxDepth, dryRun }

def summary (colour : Bool) (req : Request) (p : Products) : Text :=
  let types := Text.ofNat p.resolution.types.length ++ " concrete types"
  let elapsed := (seconds p.elapsed.toInt).fixed 3 ++ "s"
  let faint (t : Text) : Text := styled colour .faint (Text.line ("  " ++ t))
  let stats := p.resolution.stats
  (if req.dryRun then
      styled colour .success ("resolved " ++ types) ++ " in " ++ elapsed ++ " (dry run)\n"
    else
      styled colour .success ("injected " ++ types) ++ " into " ++ req.output ++ " in " ++ elapsed
        ++ "\n" : Text)
    ++ faint (Text.ofNat p.modules.length ++ " modules, "
      ++ Text.ofNat (p.calls.getD []).length ++ " seeds, " ++ stats.render)
    ++ (match req.cache with
      | none => []
      | some c => faint ("pool cache: " ++ Text.ofNat p.hits ++ " hits, " ++ Text.ofNat p.misses
          ++ " misses (" ++ c.dir ++ ")"))
    ++ (if p.reportPath = [] then [] else faint ("report: " ++ p.reportPath))
    ++ (if stats.dropped ≤ 0 then []
      else styled colour .warning (Text.line ("  " ++ Text.ofInt stats.dropped
        ++ " references stayed generic and were dropped")))

def finalBoard (req : Request) (events : List Progress) : Board :=
  let start := Board.start (applicationName ++ " " ++ req.target) req.paths
  ((events.foldl Board.apply start).update .finished).1

/-- Resolves seeds and writes the module for them. -/
def resolve (env : Environment) (colour : Bool) (a : Arguments) (crew : Crew m := .single) :
    Shell m Unit := do
  let mode ← Shell.ofExcept id (WatchMode.parse ((a.text? "ui").getD "auto"))
  let quiet := a.isOn "quiet"
  let config ← configuration env a
  let settings ← Shell.ofExcept .settings (Settings.merge env.cwd config (overrides a))
  let paths ← Shell.ofHost .selection (Selection.choose config.modules (givenSources a))
  let req ← request env a settings paths
  let (result, monitor) ← Shell.watch (Run.run env.cwd (some req) crew)
  if !quiet && mode.shows env.terminal then
    Shell.print (finalBoard req monitor.events).view
  match result with
  | .error e => do
    Shell.complain (← get).tracer.failureDump
    throw (.run e)
  | .ok _ => do
    let p := monitor.products
    if req.dryRun then Shell.print (p.resolution.types.flatMap fun t => Text.line t.fullName)
    unless quiet do Shell.print (summary colour req p)
    Shell.print (← Shell.ofExcept .timings
      (timingsText ((a.text? "timings").getD []) monitor.timings monitor.timer))

/-! ## From arguments to a command -/

def usage : Text :=
  Text.join "\n" ["usage: concretize <command> [flags] [module files...]", "", "commands:"]
    ++ "\n" ++ Command.all.flatMap fun c => Text.line ("  " ++ c.name)

def perform (env : Environment) (colour : Bool) (a : Arguments) (crew : Crew m) :
    Command → Shell m Unit
  | .resolve => resolve env colour a crew
  | .index => index env a crew
  | .harvest => harvest env a crew
  | .dump => dump a
  | .version => version a
  | .help | .completion => Shell.print usage

/-- Whether a command has a session: what it does may be coloured, profiled and traced. -/
def hasSession (c : Command) : Bool := c ≠ .help && c ≠ .completion

/-- Checks the number of arguments of a command. -/
def checkCount (c : Command) (a : Arguments) : Except Error Unit :=
  if c = .dump && a.others.length ≠ 1 then .error (.argumentCount 1 a.others.length) else .ok ()

def report (e : Error) : Shell m Unit := Shell.complain (Text.line ("Error: " ++ e.message))

/-- A command between the start and the end of its session. The code says whether it went well. -/
def session (env : Environment) (c : Command) (a : Arguments) (crew : Crew m := .single) :
    Shell m Nat := do
  let begun : Shell m (Option Bool) := do return some (← Session.start env a)
  match ← tryCatch begun fun e => do report e; return none with
  | none => return 1
  | some colour => do
    let done : Shell m Nat := do
      perform env colour a crew c
      return 0
    let code ← tryCatch done fun e => do
      report e
      return 1
    Session.stop a
    return code

def dispatch (env : Environment) (command : Option Command) (a : Arguments)
    (crew : Crew m := .single) : Shell m Nat := do
  if a.isOn "help" then
    Shell.print usage
    return 0
  match command with
  | none => do
    if a.isOn "version" then
      Shell.print (Text.line (applicationName ++ " version " ++ BuildInfo.current.version))
    else Shell.print usage
    return 0
  | some c =>
    match checkCount c a with
    | .error e => do
      report e
      return 1
    | .ok _ =>
      if hasSession c then session env c a crew
      else do
        Shell.print usage
        return 0

/-- Runs the tool; the code is what it ends with. -/
def start (env : Environment) (args : List Text) (crew : Crew m := .single) : Shell m Nat := do
  match findCommand args with
  | .error message => do
    Shell.complain (Text.line ("Error: " ++ message)
      ++ Text.line "Run 'concretize --help' for usage.")
    return 1
  | .ok (command, rest) =>
    match parse (Command.flags command) {} rest with
    | .error e => do
      report (.usage e)
      return 1
    | .ok a => dispatch env command a crew

/-- What the tool says and the code that it ends with. -/
def run (env : Environment) (args : List Text) (crew : Crew m := .single) :
    m (Nat × Console) := do
  let (code, console) ← (start env args crew).run.run {}
  match code with
  | .ok code => return (code, console)
  | .error _ => return (1, console)

end Monomorph.Cli
