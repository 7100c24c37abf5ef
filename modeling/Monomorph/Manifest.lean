import Monomorph.Selection
import Monomorph.Text.Quoted
import Monomorph.Text.Words
import Monomorph.Toml.Record

/-!
# Manifests

A project keeps its configuration in a manifest, which governs the directory that it stands in and
everything below. Relative paths in it are meant from that directory. The manifest must name the
target; other keys have defaults, and keys that mean nothing are refused.
-/

namespace Monomorph

structure Config where
  /-- The name of the module to make. -/
  target : Text := []
  /-- The path of the module to make. -/
  output : Text := []
  modules : Selection.Sources := {}
  seeds : List Text := []
  reportDir : Text := []
  useCache : Bool := false
  cacheDir : Text := []
  jobs : Int := 0
  maxDepth : Int := 0

namespace Config

/-- What holds for keys that a manifest leaves out. -/
def standard : Config := { reportDir := "Logs", useCache := true }

open Toml in
def fields : List (Toml.Field Config) :=
  [.record "target" id (fun c _ => c)
    [.leaf "name" Node.text? fun t c => { c with target := t },
     .leaf "output" Node.text? fun t c => { c with output := t }],
   .record "modules" modules (fun s c => { c with modules := s })
    [.leaf "paths" Node.texts? fun ts s => { s with paths := ts },
     .leaf "dirs" Node.texts? fun ts s => { s with dirs := ts },
     .leaf "include" Node.texts? fun ts s => { s with keep := ts },
     .leaf "exclude" Node.texts? fun ts s => { s with drop := ts }],
   .record "seeds" id (fun c _ => c)
    [.leaf "types" Node.texts? fun ts c => { c with seeds := ts }],
   .record "report" id (fun c _ => c)
    [.leaf "dir" Node.text? fun t c => { c with reportDir := t }],
   .record "cache" id (fun c _ => c)
    [.leaf "enabled" Node.bool? fun b c => { c with useCache := b },
     .leaf "dir" Node.text? fun t c => { c with cacheDir := t }],
   .record "resolve" id (fun c _ => c)
    [.leaf "jobs" Node.int? fun n c => { c with jobs := n },
     .leaf "max_depth" Node.int? fun n c => { c with maxDepth := n }]]

/-- The configuration with its relative paths seen from outside `root`. -/
def rebased (root : Text) (c : Config) : Config :=
  let rebase := fun p : Text => if Path.isAbsolute p then p else Path.join [root, p]
  let target := c.target.trim
  { c with
    target
    output := rebase (if c.output = [] then target ++ Selection.extension else c.output)
    reportDir := rebase c.reportDir
    cacheDir := if c.cacheDir = [] then [] else rebase c.cacheDir
    modules :=
      { c.modules with paths := c.modules.paths.map rebase, dirs := c.modules.dirs.map rebase } }

end Config

inductive ManifestFault where
  | file (error : FileError)
  | document (error : Toml.Error)
  | noTarget
  | noName
  | unknownKey (key : Toml.Key)
  | negative

def ManifestFault.message : ManifestFault → Text
  | .file e => "failed to parse TOML: " ++ e.message
  | .document e => "failed to parse TOML: " ++ e.message
  | .noTarget => "missing [target]"
  | .noName => "missing [target].name"
  | .unknownKey key => "unknown key " ++ Toml.renderKey key
  | .negative => "[resolve] values must not be negative"

inductive ManifestError where
  | notFound
  | unseen (path : Text) (error : FileError)
  | faulty (path : Text) (fault : ManifestFault)

structure Manifest where
  path : Text
  root : Text
  config : Config

namespace Manifest

def fileName : Text := "concretize.toml"

end Manifest

def ManifestError.message : ManifestError → Text
  | .notFound => "no " ++ Manifest.fileName ++ " found"
  | .unseen path e => "failed to stat " ++ path.quoted ++ ": " ++ e.message
  | .faulty path f => path ++ ": " ++ f.message

namespace Manifest

/-- The section for the target, and the key for its name; both must be spelled like this. -/
def targetKey : Toml.Key := ["target"]

@[inherit_doc targetKey]
def nameKey : Toml.Key := ["target", "name"]

/-- What a manifest configures, before its paths are rebased. -/
def read (bytes : List UInt8) : Except ManifestFault Config := do
  let document ← (Toml.Document.parse bytes).mapError .document
  let (config, known) ←
    (Toml.fillEntries Config.fields document.root Config.standard).mapError .document
  if !document.defines targetKey then throw .noTarget
  if !document.defines nameKey || config.target.trim = [] then throw .noName
  match document.keys.find? fun key => !known.elem key with
  | some key => throw (.unknownKey key)
  | none =>
    if config.jobs < 0 || config.maxDepth < 0 then throw .negative
    return config

variable {m : Type → Type} [Monad m] [Host m]

def load (path : Text) : ExceptT ManifestError m Manifest := do
  let bytes ← ExceptT.adapt (fun e => .faulty path (.file e)) (Host.read path)
  match read bytes with
  | .error f => throw (.faulty path f)
  | .ok config =>
    let root := Path.parent path
    return { path, root, config := config.rebased root }

/-- The directories from `dir` up to the root. -/
def upward (dir : Text) : List Text :=
  let names := Path.names dir
  (List.range (names.length + 1)).map fun i =>
    "/" ++ Text.join "/" (names.take (names.length - i))

/-- The first manifest in a list of directories. -/
def findIn : List Text → ExceptT ManifestError m (Option Text)
  | [] => return none
  | dir :: dirs => do
    let path := Path.join [dir, fileName]
    match ← Host.outcome (Host.status path) with
    | .ok _ => return some path
    | .error e => if e.cause = .missing then findIn dirs else throw (.unseen path e)

/-- Loads the manifest that governs a directory: the one in it, or the nearest above. -/
def governing (cwd dir : Text) : ExceptT ManifestError m Manifest := do
  match ← findIn (upward (Path.absolute cwd dir)) with
  | none => throw .notFound
  | some path => load path

/-- The configuration for a command and whether a manifest gave it. A path names the manifest to
take; without one the manifest that governs the current directory counts, if there is any. -/
def configuration (cwd path : Text) : ExceptT ManifestError m (Config × Bool) := do
  if path ≠ [] then return ((← load path).config, true)
  match ← Host.outcome (governing cwd Path.here) with
  | .ok manifest => return (manifest.config, true)
  | .error .notFound => return (Config.standard, false)
  | .error e => throw e

end Manifest

end Monomorph
