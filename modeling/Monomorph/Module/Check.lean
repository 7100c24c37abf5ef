import Monomorph.Module.Definition

/-!
# Structural checks

Intact links, bodies that end with a return and use known operations, and counts and local indices
that fit their encoded widths. The first fault in definition order is the one reported.
-/

namespace Monomorph

inductive BodyFault where
  | empty
  | noReturn (last : OpCode)
  | unknown (index : Nat) (op : OpCode)
  | shortIndex (index : Nat)
  | noLocal (index : Nat) (local_ : Int)
  | noMethod (index : Nat) (op : OpCode)

inductive ModuleFault where
  | missing
  | moduleLink (type : Text)
  | genericCount (type : Text)
  | declaringLink (method : Text)
  | body (method : Text) (fault : BodyFault)

def BodyFault.message : BodyFault → Text
  | .empty => "empty body"
  | .noReturn last => "body ends with " ++ last.name ++ ", want ret"
  | .unknown i op => "instruction " ++ Text.ofNat i ++ ": unknown opcode " ++ Text.ofNat op.code.toNat
  | .shortIndex i => "instruction " ++ Text.ofNat i ++ ": short local index: out of range"
  | .noLocal i l =>
    "instruction " ++ Text.ofNat i ++ ": local " ++ Text.ofInt l ++ " out of range"
  | .noMethod i op => "instruction " ++ Text.ofNat i ++ ": " ++ op.name ++ " without method operand"

def ModuleFault.message : ModuleFault → Text
  | .missing => "nil module"
  | .moduleLink t => t ++ ": module link broken"
  | .genericCount t => t ++ ": generic parameter count: out of range"
  | .declaringLink m => m ++ ": declaring link broken"
  | .body m f => m ++ ": " ++ f.message

/-- The fault of the instruction at an index, in a body with so many locals. -/
def Instruction.fault? (locals index : Nat) (i : Instruction) : Option BodyFault :=
  let v := i.operand.int.toInt
  if !i.op.isKnown then some (.unknown index i.op)
  else if i.op = .ldlocaShort && (v < 0 || 255 < v) then some (.shortIndex index)
  else if i.op.takesLocal && (v < 0 || (locals : Int) ≤ v) then some (.noLocal index v)
  else if i.op.isCall && i.operand.method.isNone then some (.noMethod index i.op)
  else none

def Body.fault? (b : Body) : Option BodyFault :=
  match b.code.getLast? with
  | none => some .empty
  | some last =>
    if last.op ≠ .ret then some (.noReturn last.op)
    else (b.code.mapIdx fun i c => c.fault? b.locals.length i).findSome? id

def Member.fault? (m : Member) : Option ModuleFault :=
  if !m.linked then some (.declaringLink m.ownerName)
  else (m.method.body.bind Body.fault?).map (.body m.ownerName)

def Definition.fault? (d : Definition) : Option ModuleFault :=
  if !d.linked then some (.moduleLink d.fullName)
  else if 65535 < d.head.generic.length then some (.genericCount d.fullName)
  else d.members.findSome? Member.fault?

def firstFault? (defs : List Definition) : Option ModuleFault := defs.findSome? Definition.fault?

def Module.fault? (m : Module) : Option ModuleFault := firstFault? m.definitions

end Monomorph
