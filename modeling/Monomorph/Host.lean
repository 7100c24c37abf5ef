import Monomorph.FileTree
import Monomorph.Trace.Instant

/-!
# Hosts

A run reads and writes files through a host, which may be the machine itself or a file tree held
in memory. The host offers single operations; what a run needs beyond them, such as making all
directories of a path or replacing a file in one step, is built from these here.
-/

namespace Monomorph

/-- What a run asks of its surroundings. -/
class Host (m : Type → Type) where
  /-- What stands at a path. -/
  status : Text → ExceptT FileError m FileKind
  /-- The contents of a file. -/
  read : Text → ExceptT FileError m (List UInt8)
  /-- The names in a directory with their kinds, in any order. -/
  entries : Text → ExceptT FileError m (List (Text × FileKind))
  /-- Makes one directory. -/
  makeDir : Text → ExceptT FileError m Unit
  /-- Opens a file to write it anew. -/
  create : Text → ExceptT FileError m Unit
  /-- Replaces the contents of a file that is open for writing. -/
  write : Text → List UInt8 → ExceptT FileError m Unit
  /-- Opens a new file in a directory, under a name that starts with a stem, and gives its path. -/
  createTemp : (dir stem : Text) → ExceptT FileError m Text
  /-- Moves a file or a directory. -/
  rename : (source target : Text) → ExceptT FileError m Unit
  /-- Removes a file or an empty directory. -/
  remove : Text → ExceptT FileError m Unit
  /-- Removes a path with everything below it. -/
  removeAll : Text → ExceptT FileError m Unit
  /-- The time. -/
  now : m Instant

namespace Host

variable {m : Type → Type} [Monad m] [Host m]

def outcome {ε δ α : Type} (work : ExceptT ε m α) : ExceptT δ m (Except ε α) := ExceptT.lift work.run

/-- What stands at a path, if the host can tell. -/
def status? {δ : Type} (path : Text) : ExceptT δ m (Option FileKind) := do
  return (← outcome (Host.status path)).toOption

def ensureDir (path : Text) : ExceptT FileError m Unit := do
  match ← outcome (Host.makeDir path) with
  | .ok _ => pure ()
  | .error e =>
    match ← status? path with
    | some .dir => pure ()
    | _ => throw e

/-- Makes the first directory of a list, and before it those behind it that are missing. -/
def ensureDirs : List Text → ExceptT FileError m Unit
  | [] => pure ()
  | path :: outer => do
    match ← status? path with
    | some .dir => pure ()
    | some .file => throw { action := .makeDir, path, cause := .notDirectory }
    | none => do
      ensureDirs outer
      ensureDir path

def makeDirs (path : Text) : ExceptT FileError m Unit := ensureDirs (path :: Path.enclosing path)

/-- Moves a file to a path, in place of a file but never of a directory. -/
def replace (source target : Text) : ExceptT FileError m Unit := do
  match ← status? target with
  | some .dir =>
    throw { action := .rename, path := source, target := some target, cause := .occupied }
  | _ => Host.rename source target

/-- Writes a file beside its final path and moves it there in one step. When anything fails, the
path is as before and nothing is left beside it. -/
def writeAside {ε : Type} (wrap : FileError → ε) (dir stem path : Text)
    (contents : Except ε (List UInt8)) : ExceptT ε m Unit := do
  let temp ← ExceptT.adapt wrap (Host.createTemp dir stem)
  let attempt : ExceptT ε m Unit := do
    let bytes ← ExceptT.mk (pure contents)
    ExceptT.adapt wrap (do
      Host.write temp bytes
      replace temp path)
  match ← outcome attempt with
  | .ok _ => pure ()
  | .error e => do
    let _ ← outcome (Host.remove temp)
    throw e

end Host

end Monomorph
