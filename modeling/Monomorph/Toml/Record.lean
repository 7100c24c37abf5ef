import Monomorph.Text.CaseFold
import Monomorph.Toml.Document

/-!
# Records in configuration documents

How a table fills the fields of a record. A field has the name that is spelled like it, or failing
that one that differs in case alone. Names without a field are passed over; `fillRecord` also says
which keys found one, so that the others can be reported.
-/

namespace Monomorph.Toml

/-- A field of a record of type `α`: its name and how a node fills it, with the keys below that
were understood. -/
structure Field (α : Type) where
  name : Text
  fill : Node → α → Except Error (α × List Key)

/-- Whether two names differ in case alone. -/
def sameLetters (a b : Text) : Bool := Text.foldCase a.scalars == Text.foldCase b.scalars

/-- The field that a name means. -/
def fieldFor? {α : Type} (fields : List (Field α)) (name : Text) : Option (Field α) :=
  (fields.find? fun f => f.name = name).or (fields.find? fun f => sameLetters f.name name)

/-- Puts a name in front of the key that an error is about. -/
def Error.under (name : Text) : Error → Error
  | .mismatch key => .mismatch (name :: key)
  | e => e

/-- Fills the fields that entries name. -/
def fillEntries {α : Type} (fields : List (Field α)) : Table → α → Except Error (α × List Key)
  | [], a => .ok (a, [])
  | (name, node) :: rest, a =>
    match fieldFor? fields name with
    | none => fillEntries fields rest a
    | some f => do
      let (a, inner) ← (f.fill node a).mapError (Error.under name)
      let (a, others) ← fillEntries fields rest a
      return (a, [name] :: inner.map (name :: ·) ++ others)

/-- Fills a record from a table. -/
def fillRecord {α : Type} (fields : List (Field α)) (node : Node) (a : α) :
    Except Error (α × List Key) :=
  match node with
  | .table entries => fillEntries fields entries a
  | _ => .error (.mismatch [])

/-- What a node says to a field that takes one kind of value. -/
def expected {β : Type} : Option β → Except Error β
  | some b => .ok b
  | none => .error (.mismatch [])

namespace Node

def text? : Node → Option Text
  | .text t => some t
  | _ => none

def int? : Node → Option Int
  | .int n => some n
  | _ => none

def bool? : Node → Option Bool
  | .bool b => some b
  | _ => none

def texts? : Node → Option (List Text)
  | .array items => items.mapM text?
  | _ => none

end Node

namespace Field

variable {α β : Type}

/-- A field that holds one value. -/
def leaf (name : Text) (read : Node → Option β) (set : β → α → α) : Field α where
  name
  fill node a := do return (set (← expected (read node)) a, [])

/-- A field that is a record itself. -/
def record (name : Text) (get : α → β) (set : β → α → α) (fields : List (Field β)) : Field α where
  name
  fill node a := do
    let (b, keys) ← fillRecord fields node (get a)
    return (set b a, keys)

end Field

end Monomorph.Toml
