import Monomorph.Toml.Reader

/-!
# Configuration documents

A document is a tree of tables, built line by line. The rules decide which keys may be named twice:

* a table that came into being only as a step of a longer key may still be opened, once;
* an array may be replaced by whatever is given to its key next;
* everything else is given once.

Beside the tree a document keeps the keys that its lines name, in order.
-/

namespace Monomorph.Toml

/-- What a key stands for. -/
inductive Node where
  | text (t : Text)
  | int (n : Int)
  | float
  | bool (b : Bool)
  | time
  | array (items : List Node)
  | table (entries : List (Text × Node))
  /-- An array of tables, the last one first. -/
  | tables (elements : List (List (Text × Node)))

/-- A table: its names in the order in which they came. -/
abbrev Table := List (Text × Node)

inductive Error where
  | syntactic
  | redefined (key : Key)
  | mismatch (key : Key)

def Error.message : Error → Text
  | .syntactic => "toml: invalid document"
  | .redefined key => "toml: key " ++ renderKey key ++ " has already been defined"
  | .mismatch key => "toml: key " ++ renderKey key ++ " has a value of the wrong type"

namespace Table

def get? (t : Table) (name : Text) : Option Node := List.lookup name t

/-- Gives a name a meaning, in its old place if it had one. -/
def put (name : Text) (node : Node) : Table → Table
  | [] => [(name, node)]
  | (n, v) :: rest => if n = name then (n, node) :: rest else (n, v) :: put name node rest

/-- Changes the table that a key leads to, through tables and the last elements of arrays of
tables. There may be none. -/
def change (f : Table → Option Table) : Key → Table → Option Table
  | [], t => f t
  | name :: key, t =>
    match get? t name with
    | some (.table inner) => (change f key inner).map fun inner => put name (.table inner) t
    | some (.tables (last :: others)) =>
      (change f key last).map fun last => put name (.tables (last :: others)) t
    | _ => none

def reach? : Key → Table → Option Table
  | [], t => some t
  | name :: key, t =>
    match get? t name with
    | some (.table inner) => reach? key inner
    | some (.tables (last :: _)) => reach? key last
    | _ => none

end Table

structure Document where
  root : Table := []
  /-- Tables that may still be opened. -/
  unopened : List Key := []
  /-- Keys to which an array was given last. -/
  arrays : List Key := []
  /-- The keys that lines name, last first. -/
  named : List Key := []

namespace Document

/-- Lets a table be opened once more. -/
def leaveOpen (key : Key) (d : Document) : Document := { d with unopened := key :: d.unopened }

/-- Ends that a table may be opened. -/
def closeUp (key : Key) (d : Document) : Document :=
  { d with unopened := d.unopened.filter (· ≠ key) }

/-- Notes whether a key was given an array last. -/
def noteArray (key : Key) (isArray : Bool) (d : Document) : Document :=
  let others := d.arrays.filter (· ≠ key)
  { d with arrays := if isArray then key :: others else others }

def noteKey (key : Key) (d : Document) : Document := { d with named := key :: d.named }

def change (key : Key) (f : Table → Option Table) (d : Document) : Except Error Document :=
  match Table.change f key d.root with
  | some root => .ok { d with root }
  | none => .error (.redefined key)

/-- Gives a name in the table at `place` a meaning, if the rules let it have a new one. -/
def give (place : Key) (name : Text) (node : Node) (d : Document) : Except Error Document :=
  let key := place ++ [name]
  match (Table.reach? place d.root).map (Table.get? · name) with
  | none => .error (.redefined key)
  | some none => d.change place fun t => some (Table.put name node t)
  | some (some _) =>
    if d.arrays.elem key then (d.closeUp key).change place fun t => some (Table.put name node t)
    else if d.unopened.elem key then .ok (d.closeUp key)
    else .error (.redefined key)

/-- Makes the tables on the way to a key that are missing; they may still be opened later. -/
def makeWay (key : Key) (d : Document) : Except Error Document :=
  (List.range key.length).foldlM
    (fun d i =>
      let way := key.take i
      match key[i]? with
      | none => .ok d
      | some name =>
        match (Table.reach? way d.root).map (Table.get? · name) with
        | some none =>
          (d.leaveOpen (way ++ [name])).change way fun t => some (Table.put name (.table []) t)
        | some (some (.table _)) => .ok d
        | some (some (.tables (_ :: _))) => .ok d
        | _ => .error (.redefined (way ++ [name])))
    d

def openTable (place : Key) (name : Text) (d : Document) : Except Error Document := do
  (← d.makeWay place).give place name (.table [])

/-- Opens one more element of the array of tables `name` inside the table at `place`. -/
def openElement (place : Key) (name : Text) (d : Document) : Except Error Document := do
  (← d.makeWay place).change place fun t =>
    match Table.get? t name with
    | none => some (Table.put name (.tables [[]]) t)
    | some (.tables others) => some (Table.put name (.tables ([] :: others)) t)
    | some _ => none

/-- Opens, step by step, the tables that the parts of a dotted key name inside the table at
`place`. -/
def openParts (place : Key) : List Text → Document → Except Error Document
  | [], d => .ok d
  | name :: names, d => do
    let d ← (d.leaveOpen (place ++ [name])).openTable place name
    openParts (place ++ [name]) names d

def built (key : Key) (d : Document) : Node := .table ((Table.reach? key d.root).getD [])

def isArray : Expr → Bool
  | .array _ => true
  | _ => false

mutual
/-- Enters what a written value holds under `name` in the table at `place`, and gives its meaning.
A table in braces is built in the tree at once; within an array it is one more element. -/
def evaluate (place : Key) (name : Text) (inArray : Bool) (d : Document) :
    Expr → Except Error (Node × Document)
  | .text t => .ok (.text t, d)
  | .int n => .ok (.int n, d)
  | .float => .ok (.float, d)
  | .bool b => .ok (.bool b, d)
  | .time => .ok (.time, d)
  | .array items => do
    let (nodes, d) ← evaluateItems place name (d.noteArray (place ++ [name]) true) items
    return (.array nodes, d)
  | .table entries => do
    let d := d.leaveOpen (place ++ [name])
    let d ← if inArray then d.openElement place name else d.openTable place name
    let d ← enterAll (place ++ [name]) d entries
    return (d.built (place ++ [name]), d)

def evaluateItems (place : Key) (name : Text) (d : Document) :
    List Expr → Except Error (List Node × Document)
  | [] => .ok ([], d)
  | item :: items => do
    let (node, d) ← evaluate place name true d item
    let (nodes, d) ← evaluateItems place name d items
    return (node :: nodes, d)

def enterAll (place : Key) (d : Document) : List (Key × Expr) → Except Error Document
  | [] => .ok d
  | (key, value) :: entries => do
    let inner := place ++ key.dropLast
    let name := key.getLast?.getD []
    let d ← d.openParts place key.dropLast
    let (node, d) ← evaluate inner name false (d.noteKey (inner ++ [name])) value
    let d ← d.give inner name node
    enterAll place (d.noteArray (inner ++ [name]) (isArray value)) entries
end

/-- Adds the lines of a document in order. `place` is the table that was opened last. -/
def addLines (place : Key) (d : Document) : List Line → Except Error Document
  | [] => .ok d
  | .entry key value :: lines => do
    addLines place (← d.enterAll place [(key, value)]) lines
  | .table key :: lines => do
    let d ← d.openTable key.dropLast (key.getLast?.getD [])
    addLines key ((d.noteArray key false).noteKey key) lines
  | .element key :: lines => do
    let d ← d.openElement key.dropLast (key.getLast?.getD [])
    addLines key ((d.noteArray key false).noteKey key) lines

def parse (bytes : List UInt8) : Except Error Document :=
  match lines? bytes with
  | none => .error .syntactic
  | some lines => addLines [] {} lines

def keys (d : Document) : List Key := d.named.reverse

/-- Whether a key stands for something, through plain tables only. -/
def defines (d : Document) (key : Key) : Bool := within d.root key
where
  within (t : Table) : Key → Bool
    | [] => true
    | name :: key =>
      match t.get? name, key with
      | none, _ => false
      | some _, [] => true
      | some (.table inner), key => within inner key
      | some _, _ :: _ => false

end Document

end Monomorph.Toml
