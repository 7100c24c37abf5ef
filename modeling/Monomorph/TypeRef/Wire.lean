import Monomorph.Binary.Record
import Monomorph.TypeRef.Basic

/-!
# Type references on the wire

A reference is a record of kind, name, arguments, position, parameter kind and owner. Kind and name
are always written, the others unless they are empty or zero. Only the arguments nest.
-/

namespace Monomorph.TypeRef

open Binary

mutual
/-- The wire value of a reference; an empty place is nothing. -/
def toValue : TypeRef → Value
  | .absent => .nil
  | .node kind name args position param owner =>
    .map ([entry "k" (.int .u8 kind.code.toUInt64), entry "n" (.str name)]
      ++ entryUnless args.isEmpty "a" (.arr (toValues args))
      ++ entryUnless (position = 0) "p" (.shortest position)
      ++ entryUnless (param.code = 0) "m" (.int .u8 param.code.toUInt64)
      ++ entryUnless owner.isEmpty "o" (.str owner))

def toValues : List TypeRef → List Value
  | [] => []
  | t :: ts => t.toValue :: toValues ts
end

/-- The reference with other arguments. -/
def withArgs (args : List TypeRef) : TypeRef → TypeRef
  | .absent => .node ⟨0⟩ [] args 0 ⟨0⟩ []
  | .node kind name _ position param owner => .node kind name args position param owner

/-- The reference, or the blank one for an empty place. -/
def orBlank : TypeRef → TypeRef
  | .absent => blank
  | t => t

/-- The fields that do not nest. -/
def flatFields : List (Binary.Field TypeRef) :=
  [⟨"k", fun t v => v.bits?.map fun b =>
      match t with
      | .absent => .node ⟨b.toUInt8⟩ [] [] 0 ⟨0⟩ []
      | .node _ name args position param owner =>
        .node ⟨b.toUInt8⟩ name args position param owner⟩,
   ⟨"n", fun t v => v.bytes?.map fun name =>
      match t with
      | .absent => .node ⟨0⟩ name [] 0 ⟨0⟩ []
      | .node kind _ args position param owner => .node kind name args position param owner⟩,
   ⟨"p", fun t v => v.bits?.map fun b =>
      match t with
      | .absent => .node ⟨0⟩ [] [] b.toInt64 ⟨0⟩ []
      | .node kind name args _ param owner => .node kind name args b.toInt64 param owner⟩,
   ⟨"m", fun t v => v.bits?.map fun b =>
      match t with
      | .absent => .node ⟨0⟩ [] [] 0 ⟨b.toUInt8⟩ []
      | .node kind name args position _ owner =>
        .node kind name args position ⟨b.toUInt8⟩ owner⟩,
   ⟨"o", fun t v => v.bytes?.map fun owner =>
      match t with
      | .absent => .node ⟨0⟩ [] [] 0 ⟨0⟩ owner
      | .node kind name args position param _ => .node kind name args position param owner⟩]

mutual
/-- Reads a reference on top of the one that stood in its place. -/
def readValue (prev : TypeRef) : Value → Option TypeRef
  | .nil => some .absent
  | .arr [] => some blank
  | .arr [k, n, a, p, m, o] => do
    let kind ← k.bits?
    let name ← n.bytes?
    let args ← readArgs prev.args a
    let position ← p.bits?
    let param ← m.bits?
    let owner ← o.bytes?
    some (.node ⟨kind.toUInt8⟩ name args position.toInt64 ⟨param.toUInt8⟩ owner)
  | .map entries => readEntries prev.orBlank entries
  | _ => none

def readEntries (t : TypeRef) : List (Value × Value) → Option TypeRef
  | [] => some t
  | (k, v) :: es => do
    let name ← k.bytes?
    if name = "a" then readEntries (t.withArgs (← readArgs t.args v)) es
    else readEntries (← readField flatFields t name v) es

/-- Reads the arguments. -/
def readArgs (prev : List TypeRef) : Value → Option (List TypeRef)
  | .nil => some []
  | .arr items => readEach prev items
  | _ => none

def readEach (prev : List TypeRef) : List Value → Option (List TypeRef)
  | [] => some []
  | v :: vs => do
    let t ← readValue (prev.headD .absent) v
    let ts ← readEach prev.tail vs
    some (t :: ts)
end

end Monomorph.TypeRef
