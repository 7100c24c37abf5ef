import Monomorph.Path

/-!
# File trees

A tree of directories and files, as a map from places to what stands there. A path is led through
the tree name by name from the root or from the current directory, and every name on the way must
be a directory.
-/

namespace Monomorph

inductive FileCause where
  | missing
  | notDirectory
  | isDirectory
  | occupied
  | notEmpty
  | nameTooLong
  | invalid
  | busy
  | other (text : Text)
deriving DecidableEq

inductive FileAction where
  | read
  | write
  | opening
  | status
  | makeDir
  | rename
  | remove
deriving DecidableEq

/-- A failed file operation. A renaming names both paths. -/
structure FileError where
  action : FileAction
  path : Text
  target : Option Text := none
  cause : FileCause
deriving DecidableEq

namespace FileCause

def message : FileCause → Text
  | .missing => "no such file or directory"
  | .notDirectory => "not a directory"
  | .isDirectory => "is a directory"
  | .occupied => "file exists"
  | .notEmpty => "directory not empty"
  | .nameTooLong => "file name too long"
  | .invalid => "invalid argument"
  | .busy => "device or resource busy"
  | .other text => text

end FileCause

def FileAction.word : FileAction → Text
  | .read => "read"
  | .write => "write"
  | .opening => "open"
  | .status => "stat"
  | .makeDir => "mkdir"
  | .rename => "rename"
  | .remove => "remove"

def FileError.message (e : FileError) : Text :=
  e.action.word ++ " " ++ e.path
    ++ (match e.target with
      | some t => " " ++ t
      | none => [] : Text)
    ++ ": " ++ e.cause.message

/-- The names that lead from the root to a place. -/
abbrev Place := List Text

inductive FileNode where
  | dir
  | file (bytes : List UInt8)
deriving DecidableEq

inductive FileKind where
  | dir
  | file
deriving DecidableEq

def FileNode.kind : FileNode → FileKind
  | .dir => .dir
  | .file _ => .file

/-- Nodes by their places. The root is always a directory and is not listed. -/
structure FileTree where
  nodes : List (Place × FileNode) := []

namespace FileTree

def get? (t : FileTree) (p : Place) : Option FileNode :=
  if p = [] then some .dir else t.nodes.lookup p

def erase (t : FileTree) (p : Place) : FileTree := ⟨t.nodes.filter fun e => e.1 ≠ p⟩

def insert (t : FileTree) (p : Place) (n : FileNode) : FileTree := ⟨(p, n) :: (t.erase p).nodes⟩

/-- The tree without a place and everything below it. -/
def eraseBelow (t : FileTree) (p : Place) : FileTree := ⟨t.nodes.filter fun e => !p.isPrefixOf e.1⟩

/-- The names directly inside a place, with their kinds. -/
def children (t : FileTree) (p : Place) : List (Text × FileKind) :=
  t.nodes.filterMap fun e =>
    if e.1 ≠ [] ∧ e.1.dropLast = p then e.1.getLast?.map fun n => (n, e.2.kind) else none

/-- The tree with a node at a place and directories at the places around it. -/
def plant (t : FileTree) (p : Place) (n : FileNode) : FileTree :=
  let made := (List.range p.length).foldl (fun t k =>
    if (t.get? (p.take k)).isSome then t else t.insert (p.take k) .dir) t
  if n = .dir ∧ made.get? p = some .dir then made else made.insert p n

/-- The tree in which everything at and below `source` has moved to `target`. -/
def move (t : FileTree) (source target : Place) : FileTree :=
  let below := t.nodes.filter fun e => source.isPrefixOf e.1
  ⟨(below.map fun e => (target ++ e.1.drop source.length, e.2)) ++
    ((t.eraseBelow source).eraseBelow target).nodes⟩

def maxName : Nat := 255

def pathBound : Nat := 4096

/-- Goes from a place, which must be a directory, to a name in it. -/
def step (t : FileTree) (p : Place) (name : Text) : Except FileCause Place :=
  match t.get? p with
  | none => .error .missing
  | some (.file _) => .error .notDirectory
  | some .dir =>
    if name = Path.here then .ok p
    else if name = Path.up then .ok p.dropLast
    else if maxName < name.length then .error .nameTooLong
    else .ok (p ++ [name])

/-- The place to which names lead. Everything on the way is a directory; the place itself may be
empty. -/
def follow (t : FileTree) (start : Place) (names : List Text) : Except FileCause Place :=
  names.foldlM t.step start

/-- A path as it is led through the tree. -/
structure Route where
  start : Place
  names : List Text
  slashed : Bool

def route (cwd : Place) (path : Text) : Except FileCause Route :=
  if List.elem 0 path then .error .invalid
  else if path = [] then .error .missing
  else if pathBound ≤ path.length then .error .nameTooLong
  else .ok
    { start := if Path.isAbsolute path then [] else cwd, names := Path.names path,
      slashed := path.getLast? = some Path.slash }

namespace Route

def isNamed (r : Route) : Bool :=
  match r.names.getLast? with
  | none => false
  | some n => n ≠ Path.here && n ≠ Path.up

end Route

/-- The place of a path; a slash at the end does not matter. -/
def locate (t : FileTree) (r : Route) : Except FileCause Place := t.follow r.start r.names

/-- The place of a path and what stands there; a slash at the end asks for a directory. -/
def find (t : FileTree) (r : Route) : Except FileCause (Place × FileNode) := do
  let p ← t.follow r.start (if r.slashed then r.names ++ [Path.here] else r.names)
  match t.get? p with
  | none => .error .missing
  | some n => .ok (p, n)

/-- Opens a file to write it anew. -/
def create (t : FileTree) (r : Route) : Except FileCause FileTree := do
  let p ← t.locate r
  if r.isNamed && r.slashed then .error .isDirectory
  else
    match t.get? p with
    | some .dir => .error .isDirectory
    | _ => .ok (t.insert p (.file []))

/-- Opens a file that is not there yet. -/
def createNew (t : FileTree) (r : Route) : Except FileCause FileTree := do
  let p ← t.locate r
  match t.get? p with
  | some _ => .error .occupied
  | none => .ok (t.insert p (.file []))

def fill (t : FileTree) (r : Route) (bytes : List UInt8) : Except FileCause FileTree := do
  match ← t.find r with
  | (_, .dir) => .error .isDirectory
  | (p, .file _) => .ok (t.insert p (.file bytes))

def makeDir (t : FileTree) (r : Route) : Except FileCause FileTree := do
  let p ← t.locate r
  match t.get? p with
  | some _ => .error .occupied
  | none => .ok (t.insert p .dir)

def remove (t : FileTree) (r : Route) : Except FileCause FileTree := do
  match ← t.find r with
  | (p, .file _) => .ok (t.erase p)
  | (p, .dir) =>
    if !r.isNamed then .error .invalid
    else if (t.children p).isEmpty then .ok (t.erase p)
    else .error .notEmpty

/-- Moves a file or a directory, over a file or an empty directory of its kind. -/
def rename (t : FileTree) (source target : Route) : Except FileCause FileTree := do
  let q ← t.locate target
  let (p, n) ← t.find source
  if !source.isNamed || !target.isNamed then .error .busy
  else
    match n, t.get? q with
    | .file _, some .dir => .error .isDirectory
    | .file _, _ => if target.slashed then .error .notDirectory else .ok (t.move p q)
    | .dir, some (.file _) => .error .notDirectory
    | .dir, dest =>
      if p = q then .ok t
      else if p.isPrefixOf q then .error .invalid
      else if dest.isSome && !(t.children q).isEmpty then .error .notEmpty
      else .ok (t.move p q)

def nameLe (a b : Text) : Bool := !(decide (b < a))

/-- The files below a place by the path from there, in byte order. -/
def filesBelow (t : FileTree) (p : Place) : List Text :=
  (t.nodes.filterMap fun e =>
    match e.2 with
    | .file _ => if p.isPrefixOf e.1 then some (Text.join "/" (e.1.drop p.length)) else none
    | .dir => none).mergeSort nameLe

end FileTree

end Monomorph
