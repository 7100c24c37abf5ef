import Monomorph.Module.Basic
import Monomorph.TypeRef.Wire

/-!
# Modules on the wire

Every part of a module is a record. A field marked as optional is left out when it is empty; the
types of a module and the instructions of a body are always written, and nothing stands for a
missing list.
-/

namespace Monomorph

open Binary

/-- The references as one list value. -/
def refItems (ts : List TypeRef) : Value := .arr (TypeRef.toValues ts)

namespace MethodRef

def toValue (r : MethodRef) : Value :=
  .map ([entry "name" (.str r.name), entry "decl" r.declaring.toValue]
    ++ entryUnless r.params.isEmpty "params" (refItems r.params)
    ++ entryUnless (!r.ret.isPresent) "ret" r.ret.toValue
    ++ entryUnless (!r.hasThis) "this" (.bool r.hasThis)
    ++ entryUnless (r.arity = 0) "arity" (.shortest r.arity)
    ++ entryUnless r.typeArgs.isEmpty "targs" (refItems r.typeArgs))

def blank : MethodRef := { name := [], declaring := .absent }

def fields : List (Binary.Field MethodRef) :=
  [⟨"name", fun r v => v.bytes?.map fun x => { r with name := x }⟩,
   ⟨"decl", fun r v => (TypeRef.readValue r.declaring v).map fun x => { r with declaring := x }⟩,
   ⟨"params", fun r v => (TypeRef.readArgs r.params v).map fun x => { r with params := x }⟩,
   ⟨"ret", fun r v => (TypeRef.readValue r.ret v).map fun x => { r with ret := x }⟩,
   ⟨"this", fun r v => v.bool?.map fun x => { r with hasThis := x }⟩,
   ⟨"arity", fun r v => v.bits?.map fun x => { r with arity := x.toInt64 }⟩,
   ⟨"targs", fun r v => (TypeRef.readArgs r.typeArgs v).map fun x => { r with typeArgs := x }⟩]

def readValue (prev : Option MethodRef) (v : Value) : Option (Option MethodRef) :=
  readPlace blank (readRecord blank fields) prev v

end MethodRef

namespace Operand

def toValue (o : Operand) : Value :=
  .map (entryUnless (!o.type.isPresent) "t" o.type.toValue
    ++ entryUnless o.method.isNone "m" ((o.method.map MethodRef.toValue).getD .nil)
    ++ entryUnless (o.int = 0) "i" (.int .i64 o.int.toUInt64)
    ++ entryUnless o.str.isEmpty "s" (.str o.str))

def fields : List (Binary.Field Operand) :=
  [⟨"t", fun o v => (TypeRef.readValue o.type v).map fun x => { o with type := x }⟩,
   ⟨"m", fun o v => (MethodRef.readValue o.method v).map fun x => { o with method := x }⟩,
   ⟨"i", fun o v => v.bits?.map fun x => { o with int := x.toInt64 }⟩,
   ⟨"s", fun o v => v.bytes?.map fun x => { o with str := x }⟩]

end Operand

namespace Instruction

def toValue (i : Instruction) : Value :=
  .map [entry "op" (.int .u8 i.op.code.toUInt64), entry "arg" i.operand.toValue]

def blank : Instruction := { op := ⟨0⟩ }

def fields : List (Binary.Field Instruction) :=
  [⟨"op", fun i v => v.bits?.map fun x => { i with op := ⟨x.toUInt8⟩ }⟩,
   ⟨"arg", fun i v =>
      (readRecord {} Operand.fields i.operand v).map fun x => { i with operand := x }⟩]

end Instruction

namespace Body

def toValue (b : Body) : Value :=
  .map (entryUnless b.locals.isEmpty "locals" (refItems b.locals)
    ++ [entry "code" ((b.stream.map fun code => .arr (code.map Instruction.toValue)).getD .nil)])

def fields : List (Binary.Field Body) :=
  [⟨"locals", fun b v => (TypeRef.readArgs b.locals v).map fun x => { b with locals := x }⟩,
   ⟨"code", fun b v =>
      (readList .blank (readRecord .blank Instruction.fields) b.code v).map fun x =>
        { b with stream := x }⟩]

end Body

namespace MethodDef

def toValue (m : MethodDef) : Value :=
  .map ([entry "name" (.str m.name), entry "attrs" (.int .u16 m.attrs.toUInt64)]
    ++ entryUnless m.generic.isEmpty "gp" (textItems m.generic)
    ++ entryUnless m.params.isEmpty "params" (refItems m.params)
    ++ entryUnless (!m.ret.isPresent) "ret" m.ret.toValue
    ++ entryUnless m.attributes.isEmpty "cattrs" (textItems m.attributes)
    ++ entryUnless m.body.isNone "body" ((m.body.map Body.toValue).getD .nil))

def blank : MethodDef := { name := [] }

def fields : List (Binary.Field MethodDef) :=
  [⟨"name", fun m v => v.bytes?.map fun x => { m with name := x }⟩,
   ⟨"attrs", fun m v => v.bits?.map fun x => { m with attrs := x.toUInt16 }⟩,
   ⟨"gp", fun m v => (readTexts m.generic v).map fun x => { m with generic := x }⟩,
   ⟨"params", fun m v => (TypeRef.readArgs m.params v).map fun x => { m with params := x }⟩,
   ⟨"ret", fun m v => (TypeRef.readValue m.ret v).map fun x => { m with ret := x }⟩,
   ⟨"cattrs", fun m v => (readTexts m.attributes v).map fun x => { m with attributes := x }⟩,
   ⟨"body", fun m v =>
      (readPlace {} (readRecord {} Body.fields) m.body v).map fun x => { m with body := x }⟩]

/-- The wire value of a place for a method. -/
def placeValue (m : Option MethodDef) : Value := (m.map toValue).getD .nil

def readValue (prev : Option MethodDef) (v : Value) : Option (Option MethodDef) :=
  readPlace blank (readRecord blank fields) prev v

end MethodDef

namespace TypeDef

mutual
/-- The wire value of a type; an empty place is nothing. -/
def toValue : TypeDef → Value
  | .absent => .nil
  | .node head nested =>
    .map (entryUnless head.ns.isEmpty "ns" (.str head.ns)
      ++ [entry "name" (.str head.name), entry "attrs" (.int .u16 head.attrs.toUInt64)]
      ++ entryUnless head.generic.isEmpty "gp" (textItems head.generic)
      ++ entryUnless (!head.base.isPresent) "base" head.base.toValue
      ++ entryUnless nested.isEmpty "nested" (.arr (toValues nested))
      ++ entryUnless head.methods.isEmpty "methods"
          (.arr (head.methods.map MethodDef.placeValue)))

def toValues : List TypeDef → List Value
  | [] => []
  | t :: ts => t.toValue :: toValues ts
end

/-- The fields of a type that do not nest, in wire order. -/
def leadFields : List (Binary.Field TypeHead) :=
  [⟨"ns", fun t v => v.bytes?.map fun x => { t with ns := x }⟩,
   ⟨"name", fun t v => v.bytes?.map fun x => { t with name := x }⟩,
   ⟨"attrs", fun t v => v.bits?.map fun x => { t with attrs := x.toUInt16 }⟩,
   ⟨"gp", fun t v => (readTexts t.generic v).map fun x =>
      { t with
        generic := x
        empties := { t.empties with
          generic := match v with | .nil => t.empties.generic | _ => x.isEmpty } }⟩,
   ⟨"base", fun t v => (TypeRef.readValue t.base v).map fun x => { t with base := x }⟩,
   ⟨"methods", fun t v => (readList none MethodDef.readValue t.methods v).map fun x =>
      { t with
        methods := x.getD []
        empties := { t.empties with methods := x.isSome && (x.getD []).isEmpty } }⟩]

/-- Notes whether the nested types were written as an empty list. -/
def markNested (head : TypeHead) (v : Value) : TypeHead :=
  { head with
    empties := { head.empties with
      nested := match v with | .arr [] => true | _ => false } }

def head : TypeDef → TypeHead
  | .absent => {}
  | .node head _ => head

def nested : TypeDef → List TypeDef
  | .absent => []
  | .node _ nested => nested

mutual
/-- Reads a type on top of the one that stood in its place. -/
def readValue (prev : TypeDef) : Value → Option TypeDef
  | .nil => some .absent
  | .arr [] => some (.node {} [])
  | .arr [ns, name, attrs, gp, base, nestedTypes, methods] => do
    let head ← readField leadFields prev.head "ns" ns
    let head ← readField leadFields head "name" name
    let head ← readField leadFields head "attrs" attrs
    let head ← readField leadFields head "gp" gp
    let head ← readField leadFields head "base" base
    let nested ← readNested prev.nested nestedTypes
    let head ← readField leadFields (markNested head nestedTypes) "methods" methods
    some (.node head nested)
  | .map entries => readEntries prev.head prev.nested entries
  | _ => none

def readEntries (head : TypeHead) (nested : List TypeDef) :
    List (Value × Value) → Option TypeDef
  | [] => some (.node head nested)
  | (k, v) :: es => do
    let name ← k.bytes?
    if name = "nested" then readEntries (markNested head v) (← readNested nested v) es
    else readEntries (← readField leadFields head name v) nested es

def readNested (prev : List TypeDef) : Value → Option (List TypeDef)
  | .nil => some []
  | .arr items => readEach prev items
  | _ => none

def readEach (prev : List TypeDef) : List Value → Option (List TypeDef)
  | [] => some []
  | v :: vs => do
    let t ← readValue (prev.headD .absent) v
    let ts ← readEach prev.tail vs
    some (t :: ts)
end

end TypeDef

namespace Module

def toValue (m : Module) : Value :=
  .map ([entry "name" (.str m.name)]
    ++ entryUnless m.version.isEmpty "version" (.str m.version)
    ++ [entry "types" ((m.listed.map fun ts => .arr (TypeDef.toValues ts)).getD .nil)])

def fields : List (Binary.Field Module) :=
  [⟨"name", fun m v => v.bytes?.map fun x => { m with name := x }⟩,
   ⟨"version", fun m v => v.bytes?.map fun x => { m with version := x }⟩,
   ⟨"types", fun m v =>
      match v.items? with
      | none => none
      | some none => some { m with listed := none }
      | some (some items) =>
        (TypeDef.readEach m.types items).map fun x => { m with listed := some x }⟩]

def readValue (v : Value) : Option Module := readRecord {} fields {} v

end Module

end Monomorph
