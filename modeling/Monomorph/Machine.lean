import Monomorph.Host
import Std.Time.DateTime.Timestamp

/-!
# The machine as a host

The files and the clock of the machine that the program runs on. Nothing is decided here: each
operation is handed to the system, and what the system refuses is turned into a `FileError`.
-/

namespace Monomorph.Machine

def refusal : IO.Error → UInt32 × String
  | .alreadyExists _ code text | .noFileOrDirectory _ code text | .invalidArgument _ code text
  | .permissionDenied _ code text | .resourceExhausted _ code text
  | .inappropriateType _ code text | .noSuchThing _ code text | .interrupted _ code text
  | .otherError code text | .resourceBusy code text | .resourceVanished code text
  | .unsupportedOperation code text | .hardwareFault code text
  | .unsatisfiedConstraints code text | .illegalOperation code text | .protocolError code text
  | .timeExpired code text => (code, text)
  | .unexpectedEof => (0, "unexpected end of file")
  | .userError text => (0, text)

/-- Why the system refused an operation. Some of its parts give the number of the reason negated. -/
def causeOf (e : IO.Error) : FileCause :=
  let (code, text) := refusal e
  match if code < 2147483648 then code else 0 - code, text with
  | 2, _ => .missing
  | 16, _ => .busy
  | 17, _ => .occupied
  | 20, _ => .notDirectory
  | 21, _ => .isDirectory
  | 22, _ => .invalid
  | 36, _ => .nameTooLong
  | 39, _ => .notEmpty
  | _, text => .other (Text.ofString text)

/-- Hands an operation to the system. -/
def attempt {α : Type} (error : FileCause → FileError) (work : IO α) : ExceptT FileError IO α :=
  ExceptT.mk do
    match ← work.toBaseIO with
    | .ok a => return .ok a
    | .error e => return .error (error (causeOf e))

/-- Hands an operation that is known by a path to the system. Nothing stands at the empty path. -/
def attemptOn {α : Type} (action : FileAction) (path : Text) (work : String → IO α) :
    ExceptT FileError IO α :=
  if path = [] then throw { action, path, cause := .missing }
  else attempt (fun cause => { action, path, cause }) (work path.display)

def kindAt (path : String) : IO FileKind := do
  match (← ((← IO.currentDir) / path).metadata).type with
  | .dir => return .dir
  | _ => return .file

def status (path : Text) : ExceptT FileError IO FileKind := attemptOn .status path kindAt

/-- A directory opens like a file, and it is the reading that fails. -/
def read (path : Text) : ExceptT FileError IO (List UInt8) := do
  match ← attemptOn .opening path kindAt with
  | .dir => throw { action := .read, path, cause := .isDirectory }
  | .file => return (← attemptOn .opening path fun p => IO.FS.readBinFile p).toList

def entries (path : Text) : ExceptT FileError IO (List (Text × FileKind)) :=
  attemptOn .opening path fun p => do
    let found ← ((← IO.currentDir) / p).readDir
    found.toList.mapM fun e => do
      return (Text.ofString e.fileName, ← kindAt e.path.toString)

def makeDir (path : Text) : ExceptT FileError IO Unit :=
  attemptOn .makeDir path fun p => IO.FS.createDir p

def create (path : Text) : ExceptT FileError IO Unit :=
  attemptOn .opening path fun p => IO.FS.writeBinFile p .empty

def write (path : Text) (bytes : List UInt8) : ExceptT FileError IO Unit :=
  attemptOn .write path fun p => IO.FS.writeBinFile p ⟨bytes.toArray⟩

/-- Opens the first of some numbered files that is not there yet. -/
def createNumbered (start : Text) (number : Nat) : (tries : Nat) → ExceptT FileError IO Text
  | 0 => throw { action := .opening, path := start, cause := .occupied }
  | tries + 1 => do
    let path := start ++ Text.ofNat (number + tries)
    let opened := attemptOn .opening path fun p => do
      let _ ← IO.FS.Handle.mk p .writeNew
    match ← Host.outcome opened with
    | .ok _ => return path
    | .error e => if e.cause = .occupied then createNumbered start number tries else throw e

/-- The number in the name comes from the clock. -/
def createTemp (dir stem : Text) : ExceptT FileError IO Text := do
  let stemPath := if dir.getLast? = some Path.slash then dir ++ stem else dir ++ "/" ++ stem
  createNumbered stemPath ((← IO.monoNanosNow) % 1000000000) 10000

def rename (source target : Text) : ExceptT FileError IO Unit :=
  attempt (fun cause => { action := .rename, path := source, target := some target, cause })
    (IO.FS.rename source.display target.display)

def remove (path : Text) : ExceptT FileError IO Unit :=
  attemptOn .remove path fun p => do
    match ← kindAt p with
    | .dir => IO.FS.removeDir p
    | .file => IO.FS.removeFile p

/-- A path that is not there has been removed already. -/
def removeAll (path : Text) : ExceptT FileError IO Unit := do
  let work := attemptOn .remove path fun p => do
    match ← kindAt p with
    | .dir => IO.FS.removeDirAll p
    | .file => IO.FS.removeFile p
  match ← Host.outcome work with
  | .ok _ => return
  | .error e => if e.cause = .missing then return else throw e

def now : IO Instant := do
  let t ← Std.Time.Timestamp.now
  return .ofUnix 0 t.toNanosecondsSinceUnixEpoch.toInt

instance : Host IO where
  status := status
  read := read
  entries := entries
  makeDir := makeDir
  create := create
  write := write
  createTemp := createTemp
  rename := rename
  remove := remove
  removeAll := removeAll
  now := now

end Monomorph.Machine
