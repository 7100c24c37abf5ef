import Monomorph.Decimal.Double
import Monomorph.Host
import Monomorph.Resolve.Engine

/-!
# Reports

The record of a run for people: a header, the resolved types one a line, and the counters.
-/

namespace Monomorph

structure Report where
  target : Text
  output : Text
  result : Resolution
  nanos : Int

inductive ReportError where
  | file (error : FileError)
  | write (path : Text) (error : FileError)

def ReportError.message : ReportError → Text
  | .file e => e.message
  | .write path e => "write " ++ path ++ ": " ++ e.message

namespace Report

def fileName (target : Text) : Text := "concretized_" ++ target ++ "_types.log"

/-- The summary in one line. The output is named by its path from the root; `cwd` is the current
directory. -/
def header (cwd : Text) (r : Report) : Text :=
  r.target ++ " - " ++ (seconds r.nanos).fixed 3 ++ "s to inject "
    ++ Text.ofNat r.result.types.length ++ " concrete types in module '"
    ++ Path.absolute cwd r.output ++ "'"

def text (cwd : Text) (r : Report) : Text :=
  (r.header cwd).line ++ r.result.types.flatMap (fun t => t.fullName.line)
    ++ Text.line ("# " ++ r.result.stats.render)

variable {m : Type → Type} [Monad m] [Host m]

/-- Writes the report into a directory, in place of an earlier one for the target, and gives its
path. -/
def save (cwd dir : Text) (r : Report) : ExceptT ReportError m Text := do
  ExceptT.adapt .file (Host.makeDirs dir)
  let path := Path.join [dir, fileName r.target]
  ExceptT.adapt .file (Host.create path)
  ExceptT.adapt (.write path) (Host.write path (r.text cwd))
  return path

end Report

end Monomorph
