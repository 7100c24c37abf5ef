import Monomorph.Host
import Monomorph.Module.Codec

/-!
# Module files

Loading and saving modules through a host. A module is saved beside its path first and then moved
there, so that a reader finds the old file or the new one and nothing in between.
-/

namespace Monomorph

inductive LoadError where
  | file (error : FileError)
  | decode (path : Text) (error : DecodeError)

def LoadError.message : LoadError → Text
  | .file e => e.message
  | .decode path e => path ++ ": " ++ e.message

inductive SaveError where
  | file (error : FileError)
  | format (fault : FormatFault)

def SaveError.message : SaveError → Text
  | .file e => e.message
  | .format f => f.message

namespace Module

variable {m : Type → Type} [Monad m] [Host m]

/-- The start of the names under which modules are written before they are moved. -/
def asideStem : Text := ".module-"

/-- Loads a module together with the bytes of its file. An empty place for a method crashes the
reader (`FormatFault.emptyMethod`), and a crash ends the whole process, so it is no outcome of a run.
Inside runs it counts as an error of loading like every other. -/
def load (path : Text) : ExceptT LoadError m (Module × List UInt8) := do
  let bytes ← ExceptT.adapt .file (Host.read path)
  match decode bytes with
  | .ok module => return (module, bytes)
  | .error e => throw (.decode path e)

/-- What saving writes; there may be no module to save. -/
def contents : Option Module → Except SaveError (List UInt8)
  | none => .error (.format .missing)
  | some module =>
    match module.encode with
    | .ok bytes => .ok bytes
    | .error f => .error (.format f)

/-- Saves a module in place of any file at the path. -/
def save (path : Text) (module : Option Module) : ExceptT SaveError m Unit := do
  let dir := Path.parent path
  ExceptT.adapt .file (Host.makeDirs dir)
  Host.writeAside .file dir asideStem path (contents module)

end Module

end Monomorph
