import Monomorph.Module.Wire

/-!
# The module file format

A module file is the mark `CMOD`, a little-endian schema number and the module as a binary value.
Writing refuses a module that breaks the model's rules, and reading refuses to return one; the
first broken rule in declaration order is reported.
-/

namespace Monomorph

inductive RefFault where
  | noArguments (name : Text)
  | emptyArgument (name : Text)
  | noParamKind (name : Text)
  | position (name : Text) (position : Int)
  | kind (name : Text) (kind : TypeKind)

/-- Broken rules of a method; the number is the index of an instruction. -/
inductive MethodFault where
  | unnamed
  | ref (fault : RefFault)
  | opcode (index : Nat) (op : OpCode)
  | operand (index : Nat) (fault : RefFault)
  | noDeclaring (index : Nat) (name : Text)

/-- Broken rules of a module. An empty place for a method has no report of its own: it crashes
the validation, which wants the name of the method for its message. -/
inductive FormatFault where
  | missing
  | unnamed
  | unnamedType (module : Text)
  | genericCount (type : Text)
  | base (type : Text) (fault : RefFault)
  | method (type method : Text) (fault : MethodFault)
  | emptyMethod

def RefFault.message : RefFault → Text
  | .noArguments name => "malformed module: instance " ++ name ++ " has no arguments"
  | .emptyArgument name => "malformed module: instance " ++ name ++ " has a nil argument"
  | .noParamKind name => "malformed module: parameter " ++ name ++ " has no kind"
  | .position name p => "malformed module: parameter " ++ name ++ " position " ++ Text.ofInt p
  | .kind name k =>
    "malformed module: type reference " ++ name.quoted ++ " has kind " ++ Text.ofNat k.code.toNat

def placeName (index : Nat) : Text := "IL_" ++ Text.hexPadded 4 index

def MethodFault.message : MethodFault → Text
  | .unnamed => "malformed module: unnamed method"
  | .ref f => f.message
  | .opcode i op =>
    "malformed module: " ++ placeName i ++ ": unknown opcode " ++ Text.ofNat op.code.toNat
  | .operand i f => placeName i ++ ": " ++ f.message
  | .noDeclaring i name =>
    "malformed module: " ++ placeName i ++ ": method " ++ name ++ " has no declaring type"

def FormatFault.message : FormatFault → Text
  | .missing => "malformed module: nil module"
  | .unnamed => "malformed module: module has no name"
  | .unnamedType m => "malformed module: unnamed type in " ++ m
  | .genericCount t => "malformed module: " ++ t ++ ": too many generic parameters"
  | .base t f => t ++ " base: " ++ f.message
  | .method t m f => t ++ "::" ++ m ++ ": " ++ f.message
  | .emptyMethod => "empty place for a method"

namespace TypeRef

/-- Whether a parameter position fits its encoded width. -/
def fitsPosition (p : Int64) : Bool := 0 ≤ p.toInt && p.toInt < 65536

mutual
/-- The first broken rule of a reference. An empty place breaks none, and neither do the
arguments of a plain definition, which are not looked at. -/
def fault? : TypeRef → Option RefFault
  | .absent => none
  | .node kind name args position param _ =>
    if kind = .definition then none
    else if kind = .inst then
      if args.isEmpty then some (.noArguments name) else argFault? name args
    else if kind = .parameter then
      if param ≠ .type ∧ param ≠ .method then some (.noParamKind name)
      else if !fitsPosition position then some (.position name position.toInt)
      else none
    else some (.kind name kind)

/-- The first broken rule among the arguments of the instance called `name`. -/
def argFault? (name : Text) : List TypeRef → Option RefFault
  | [] => none
  | t :: ts =>
    if !t.isPresent then some (.emptyArgument name)
    else
      match t.fault? with
      | some f => some f
      | none => argFault? name ts
end

end TypeRef

def Instruction.formatFault? (index : Nat) (i : Instruction) : Option MethodFault :=
  if !i.op.isKnown then some (.opcode index i.op)
  else
    match i.operand.type.fault? with
    | some f => some (.operand index f)
    | none =>
      match i.operand.method with
      | none => none
      | some r =>
        if !r.declaring.isPresent then some (.noDeclaring index r.name)
        else ((r.declaring :: r.typeArgs).findSome? TypeRef.fault?).map (.operand index)

def Body.formatFault? (b : Body) : Option MethodFault :=
  match b.locals.findSome? TypeRef.fault? with
  | some f => some (.ref f)
  | none => (b.code.mapIdx fun i c => c.formatFault? i).findSome? id

def MethodDef.formatFault? (m : MethodDef) : Option MethodFault :=
  if m.name = [] then some .unnamed
  else
    match m.params.findSome? TypeRef.fault? with
    | some f => some (.ref f)
    | none => m.body.bind Body.formatFault?

/-- The first broken rule of a place for a method of the type called `type`. -/
def MethodDef.placeFault? (type : Text) : Option MethodDef → Option FormatFault
  | none => some .emptyMethod
  | some m => m.formatFault?.map (.method type m.name)

def TypeHead.formatFault? (module : Text) (t : TypeHead) : Option FormatFault :=
  if t.name = [] then some (.unnamedType module)
  else if 65535 < t.generic.length then some (.genericCount t.name)
  else
    match t.base.fault? with
    | some f => some (.base t.name f)
    | none => t.methods.findSome? (MethodDef.placeFault? t.name)

mutual
def TypeDef.formatFault? (module : Text) : TypeDef → Option FormatFault
  | .absent => some (.unnamedType module)
  | .node head nested =>
    match head.formatFault? module with
    | some f => some f
    | none => formatFaultIn? module nested

def TypeDef.formatFaultIn? (module : Text) : List TypeDef → Option FormatFault
  | [] => none
  | t :: ts =>
    match t.formatFault? module with
    | some f => some f
    | none => formatFaultIn? module ts
end

namespace Module

def formatFault? (m : Module) : Option FormatFault :=
  if m.name = [] then some .unnamed else TypeDef.formatFaultIn? m.name m.types

def mark : List UInt8 := [67, 77, 79, 68]

/-- The schema number that is written and read. -/
def schema : Nat := 1

def fileBytes (m : Module) : List UInt8 := mark ++ [1, 0] ++ m.toValue.render

/-- Writes a module that breaks no rule. -/
def encode (m : Module) : Except FormatFault (List UInt8) :=
  match m.formatFault? with
  | some f => .error f
  | none => .ok m.fileBytes

end Module

/-- Why bytes are no module file. -/
inductive DecodeError where
  | badMark
  | truncatedHeader
  | schema (got : Nat)
  | undecodable
  | malformed (fault : FormatFault)

/-- The document error names the packed format and nothing else about it. -/
def DecodeError.message : DecodeError → Text
  | .badMark => "not a compiled module"
  | .truncatedHeader => "not a compiled module: truncated header"
  | .schema got =>
    "unsupported module schema: got " ++ Text.ofNat got ++ ", want " ++ Text.ofNat Module.schema
  | .undecodable => "malformed module: undecodable document"
  | .malformed f => f.message

namespace Module

/-- Reads the part of a module file behind the mark. -/
def decodeBody : List UInt8 → Except DecodeError Module
  | lo :: hi :: doc =>
    let got := lo.toNat + 256 * hi.toNat
    if got ≠ schema then .error (.schema got)
    else
      match (Binary.Value.parse doc).bind fun (v, _) => readValue v with
      | none => .error .undecodable
      | some m =>
        match m.formatFault? with
        | some f => .error (.malformed f)
        | none => .ok m
  | _ => .error .truncatedHeader

/-- Reads a module file. Bytes behind the module are ignored. -/
def decode (bytes : List UInt8) : Except DecodeError Module :=
  if bytes.take 4 = mark then decodeBody (bytes.drop 4) else .error .badMark

end Module

end Monomorph
