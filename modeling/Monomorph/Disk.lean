import Monomorph.Host

/-!
# A disk in memory

A host whose files are a `FileTree`. The clock stands still. Any operation may be made to fail:
`faults` says for the number of an operation, counted from zero, and for what it does, why it fails
if it does. A failing operation changes nothing, but for a write that gets some way before it fails.
-/

namespace Monomorph

/-- What no operation changes: the current directory, the clock, and the failures to come. -/
structure Surroundings where
  cwd : Place := []
  clock : Instant := { sec := 0, nano := 0 }
  faults : Nat → FileAction → Option FileCause := fun _ _ => none
  /-- How many bytes a failing write still writes; all of them, where only the closing fails. -/
  torn : Nat → Nat := fun _ => 0

/-- A file tree in its surroundings, after a number of operations. -/
structure Disk extends Surroundings where
  tree : FileTree := {}
  steps : Nat := 0

abbrev DiskM := StateM Disk

namespace Disk

/-- Performs one operation on the tree, unless it is due to fail. What a failure leaves of the tree
is `wreck`. -/
def perform {α : Type} (action : FileAction) (error : FileCause → FileError)
    (operation : Disk → Except FileError (α × FileTree)) (wreck : Disk → FileTree := tree) :
    ExceptT FileError DiskM α :=
  ExceptT.mk fun d =>
    let next := { d with steps := d.steps + 1 }
    match d.faults d.steps action with
    | some cause => (.error (error cause), { next with tree := wreck d })
    | none =>
      match operation d with
      | .error e => (.error e, next)
      | .ok (a, tree) => (.ok a, { next with tree })

/-- Performs one operation that is known by a path. -/
def performOn {α : Type} (action : FileAction) (path : Text)
    (operation : Disk → FileTree.Route → Except FileCause (α × FileTree))
    (wreck : Disk → FileTree := tree) : ExceptT FileError DiskM α :=
  let error (cause : FileCause) : FileError := { action, path, cause }
  let located (d : Disk) : Except FileError (α × FileTree) :=
    match (FileTree.route d.cwd path).bind (operation d) with
    | .ok r => .ok r
    | .error cause => .error (error cause)
  perform action error located wreck

def status (path : Text) : ExceptT FileError DiskM FileKind :=
  performOn .status path fun d r => do
    let (_, n) ← d.tree.find r
    return (n.kind, d.tree)

/-- A directory opens like a file, and it is the reading that fails. -/
def read (path : Text) : ExceptT FileError DiskM (List UInt8) :=
  perform .opening (fun cause => { action := .opening, path, cause }) fun d =>
    match (FileTree.route d.cwd path).bind d.tree.find with
    | .error cause => .error { action := .opening, path, cause }
    | .ok (_, .dir) => .error { action := .read, path, cause := .isDirectory }
    | .ok (_, .file bytes) => .ok (bytes, d.tree)

def entries (path : Text) : ExceptT FileError DiskM (List (Text × FileKind)) :=
  performOn .opening path fun d r => do
    match ← d.tree.find r with
    | (p, .dir) => .ok (d.tree.children p, d.tree)
    | (_, .file _) => .error .notDirectory

def makeDir (path : Text) : ExceptT FileError DiskM Unit :=
  performOn .makeDir path fun d r => do return ((), ← d.tree.makeDir r)

def create (path : Text) : ExceptT FileError DiskM Unit :=
  performOn .opening path fun d r => do return ((), ← d.tree.create r)

/-- The tree with bytes at a path, if they can be written there. -/
def filled (d : Disk) (path : Text) (bytes : List UInt8) : FileTree :=
  match (FileTree.route d.cwd path).bind fun r => d.tree.fill r bytes with
  | .ok t => t
  | .error _ => d.tree

def write (path : Text) (bytes : List UInt8) : ExceptT FileError DiskM Unit :=
  performOn .write path (fun d r => do return ((), ← d.tree.fill r bytes))
    fun d => d.filled path (bytes.take (d.torn d.steps))

def inside (dir name : Text) : Text :=
  if dir.getLast? = some Path.slash then dir ++ name else dir ++ "/" ++ name

def isFree (d : Disk) (path : Text) : Bool :=
  match (FileTree.route d.cwd path).bind d.tree.find with
  | .error .missing => true
  | _ => false

/-- The first of the numbered paths that is free. One more path than there are nodes is enough. -/
def freePath (d : Disk) (dir stem : Text) : Text :=
  let path (n : Nat) : Text := inside dir (stem ++ Text.ofNat n)
  match (List.range (d.tree.nodes.length + 1)).find? fun n => d.isFree (path n) with
  | some n => path n
  | none => path (d.tree.nodes.length + 1)

def createTemp (dir stem : Text) : ExceptT FileError DiskM Text :=
  perform .opening (fun cause => { action := .opening, path := inside dir stem, cause }) fun d =>
    let path := d.freePath dir stem
    match (FileTree.route d.cwd path).bind d.tree.createNew with
    | .ok tree => .ok (path, tree)
    | .error cause => .error { action := .opening, path, cause }

def rename (source target : Text) : ExceptT FileError DiskM Unit :=
  let error (cause : FileCause) : FileError :=
    { action := .rename, path := source, target := some target, cause }
  perform .rename error fun d =>
    let moved : Except FileCause FileTree := do
      d.tree.rename (← FileTree.route d.cwd source) (← FileTree.route d.cwd target)
    match moved with
    | .ok tree => .ok ((), tree)
    | .error cause => .error (error cause)

def remove (path : Text) : ExceptT FileError DiskM Unit :=
  performOn .remove path fun d r => do return ((), ← d.tree.remove r)

/-- A path that is not there has been removed already. -/
def removeAll (path : Text) : ExceptT FileError DiskM Unit :=
  performOn .remove path fun d r =>
    match d.tree.find r with
    | .ok (p, _) => .ok ((), d.tree.eraseBelow p)
    | .error .missing => .ok ((), d.tree)
    | .error cause => .error cause

instance : Host DiskM where
  status := status
  read := read
  entries := entries
  makeDir := makeDir
  create := create
  write := write
  createTemp := createTemp
  rename := rename
  remove := remove
  removeAll := removeAll
  now := fun d => (d.clock, d)

end Disk

end Monomorph
