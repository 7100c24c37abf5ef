import Monomorph.TypeRef.Basic
import Monomorph.Text.Quoted

/-!
# Instructions

Method references as call sites write them, operation codes, and instructions with their operands.
-/

namespace Monomorph

/-- A parameter list between parentheses. -/
def renderParams (params : List TypeRef) : Text :=
  "(" ++ Text.join "," (params.map TypeRef.fullName) ++ ")"

/-- A reference to a method from a call site. `params` and `ret` are written in terms of the
generic parameters of the method referred to; `declaring` and `typeArgs` carry the arguments that
the call site supplies. -/
structure MethodRef where
  name : Text
  declaring : TypeRef
  params : List TypeRef := []
  ret : TypeRef := .absent
  hasThis : Bool := false
  arity : Int64 := 0
  typeArgs : List TypeRef := []
deriving DecidableEq

namespace MethodRef

/-- Whether the call site supplies type arguments for the method itself. -/
def isGenericInstance (r : MethodRef) : Bool := !r.typeArgs.isEmpty

/-- The text `Ret Decl::Name<Args>(Params)`; an empty return or declaring place is left out. -/
def fullName (r : MethodRef) : Text :=
  (if r.ret.isPresent then r.ret.fullName ++ " " else [])
    ++ (if r.declaring.isPresent then r.declaring.fullName else [])
    ++ "::" ++ r.name
    ++ (if r.typeArgs.isEmpty then []
        else "<" ++ Text.join "," (r.typeArgs.map TypeRef.fullName) ++ ">" : Text)
    ++ renderParams r.params

end MethodRef

structure OpCode where
  code : UInt8
deriving DecidableEq

namespace OpCode

def names : Array String :=
  #["nop", "ret", "pop", "dup", "ldarg", "ldloc", "ldloca", "ldloca.s", "stloc", "ldnull",
    "ldc.i4", "ldstr", "call", "callvirt", "newobj", "initobj", "constrained.", "ldtoken", "box",
    "newarr", "castclass", "isinst", "ldfld", "stfld", "br"]

def nop : OpCode := ⟨0⟩
def ret : OpCode := ⟨1⟩
def pop : OpCode := ⟨2⟩
def dup : OpCode := ⟨3⟩
def ldarg : OpCode := ⟨4⟩
def ldloc : OpCode := ⟨5⟩
def ldloca : OpCode := ⟨6⟩
def ldlocaShort : OpCode := ⟨7⟩
def stloc : OpCode := ⟨8⟩
def ldnull : OpCode := ⟨9⟩
def ldcI4 : OpCode := ⟨10⟩
def ldstr : OpCode := ⟨11⟩
def call : OpCode := ⟨12⟩
def callvirt : OpCode := ⟨13⟩
def newobj : OpCode := ⟨14⟩
def initobj : OpCode := ⟨15⟩
def constrained : OpCode := ⟨16⟩
def ldtoken : OpCode := ⟨17⟩
def br : OpCode := ⟨24⟩

def isKnown (op : OpCode) : Bool := op.code < 25

def name (op : OpCode) : Text := (names[op.code.toNat]?).getD "op?"

/-- Whether the operation transfers control to its method operand. -/
def isCall (op : OpCode) : Bool := op = call || op = callvirt || op = newobj

/-- Whether a listing shows the integer operand. -/
def showsInt (op : OpCode) : Bool :=
  op = ldcI4 || op = ldloc || op = stloc || op = ldloca || op = ldlocaShort || op = ldarg
    || op = br

/-- Whether the integer operand is the index of a local. -/
def takesLocal (op : OpCode) : Bool :=
  op = ldlocaShort || op = ldloca || op = ldloc || op = stloc

end OpCode

/-- The payload of an instruction. Usually at most one field is set. -/
structure Operand where
  type : TypeRef := .absent
  method : Option MethodRef := none
  int : Int64 := 0
  str : Text := []
deriving DecidableEq

structure Instruction where
  op : OpCode
  operand : Operand := {}
deriving DecidableEq

namespace Instruction

/-- The listing text of an instruction. A method operand hides a type operand, a type operand
hides a text, and an integer shows only for operations that take one. -/
def render (i : Instruction) : Text :=
  match i.operand.method with
  | some m => i.op.name ++ " " ++ m.fullName
  | none =>
    if i.operand.type.isPresent then i.op.name ++ " " ++ i.operand.type.fullName
    else if i.operand.str ≠ [] then i.op.name ++ " " ++ i.operand.str.quoted
    else if i.op.showsInt then i.op.name ++ " " ++ Text.ofInt i.operand.int.toInt
    else i.op.name

end Instruction

/-- A method body: declared locals and the instruction stream. A body may lack a stream, which
the wire tells apart from an empty one. -/
structure Body where
  locals : List TypeRef := []
  stream : Option (List Instruction) := none
deriving DecidableEq

namespace Body

/-- The instructions; none when the stream is missing. -/
def code (b : Body) : List Instruction := b.stream.getD []

def emit (b : Body) (i : Instruction) : Body := { b with stream := some (b.code ++ [i]) }

/-- Declares a local; its index is the number of locals before it. -/
def addLocal (b : Body) (t : TypeRef) : Body := { b with locals := b.locals ++ [t] }

end Body

end Monomorph
