import Monomorph.Host
import Monomorph.Text.Canonical
import Monomorph.Text.CaseFold

/-!
# Module selection

Which module files take part in a run: files given by path and files found in directories, kept or
dropped by words in their names. Words match without regard to case or to how characters are
composed, or by another form in which texts are compared.
-/

namespace Monomorph

namespace Selection

def extension : Text := ".bin"

/-- The form in which names and keywords are compared. -/
def folded (t : Text) : Text := (Text.foldCase (Text.composed t.scalars)).flatMap Text.Scalar.bytes

/-- The module name that a path stands for: its last name without the extension. -/
def moduleName (path : Text) : Text :=
  let name := Path.base path
  name.take (name.length - (Path.extension name).length)

/-- Whether a name contains one of the keywords; empty keywords match nothing. -/
def hasKeyword (name : Text) (keywords : List Text) (fold : Text → Text := folded) : Bool :=
  let n := fold name
  keywords.any fun k => k ≠ [] && Text.contains (fold k) n

/-- Keeps the first of equal texts. -/
def distinct (ts : List Text) : List Text :=
  ts.foldl (fun kept t => if kept.contains t then kept else kept ++ [t]) []

/-- Whether a clean path passes the filters. No keywords let every name pass. -/
def passes (keywords exclude : List Text) (fold : Text → Text) (path : Text) : Bool :=
  let name := moduleName path
  (keywords.isEmpty || hasKeyword name keywords fold) && !hasKeyword name exclude fold

/-- The clean candidates that pass the filters, each once, in order. -/
def select (candidates keywords exclude : List Text) (fold : Text → Text := folded) : List Text :=
  (distinct (candidates.map Path.clean)).filter (passes keywords exclude fold)

/-- A byte with the case of ASCII letters lowered. -/
def lowerByte (b : UInt8) : UInt8 := if 65 ≤ b && b ≤ 90 then b + 32 else b

/-- Whether a file name has the extension of modules, in any case. -/
def isModuleFile (name : Text) : Bool := (Path.extension name).map lowerByte == extension

/-- Why no modules were selected. -/
inductive Error where
  | scan (dir : Text) (error : FileError)
  | nothing

def Error.message : Error → Text
  | .scan dir e => "scan " ++ dir ++ ": " ++ e.message
  | .nothing => "no module files selected"

variable {m : Type → Type} [Monad m] [Host m]

/-- The module files directly inside a directory, in byte order. -/
def discoverIn (dir : Text) : ExceptT Error m (List Text) := do
  let entries ← ExceptT.adapt (.scan dir) (Host.entries dir)
  let names := (entries.filter fun e => e.2 = .file && isModuleFile e.1).map Prod.fst
  return (names.mergeSort FileTree.nameLe).map fun n => Path.join [dir, n]

/-- The module files directly inside directories, in the order of the directories. -/
def discover : List Text → ExceptT Error m (List Text)
  | [] => return []
  | dir :: dirs => do
    let found ← discoverIn dir
    let more ← discover dirs
    return found ++ more

/-- What a manifest or a command line says about modules. -/
structure Sources where
  paths : List Text := []
  dirs : List Text := []
  keep : List Text := []
  drop : List Text := []

/-- The modules for a run: given files, configured files, then files found in the configured and
the given directories. Given filters replace the configured ones. -/
def choose (configured given : Sources) : ExceptT Error m (List Text) := do
  let found ← discover (configured.dirs ++ given.dirs)
  let keywords := if given.keep.isEmpty then configured.keep else given.keep
  let exclude := if given.drop.isEmpty then configured.drop else given.drop
  match select (given.paths ++ configured.paths ++ found) keywords exclude with
  | [] => throw .nothing
  | paths => return paths

end Selection

end Monomorph
