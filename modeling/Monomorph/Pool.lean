import Monomorph.Module.Definition

/-!
# The pool of instances in use

The concrete generic instances that a program already mentions. A pool keeps the first reference
of each full name, in the order in which they were found.
-/

namespace Monomorph

/-- Concrete references, unique by full name, in order of insertion. -/
structure Pool where
  types : List TypeRef := []

namespace Pool

def contains (p : Pool) (fullName : Text) : Bool := p.types.any fun t => t.fullName == fullName

/-- Whether adding the reference would extend the pool. -/
def accepts (p : Pool) (t : TypeRef) : Bool := t.isConcrete && !p.contains t.fullName

/-- Adds a reference unless it is not concrete or its name is already there. -/
def add (p : Pool) (t : TypeRef) : Pool := if p.accepts t then ⟨p.types ++ [t]⟩ else p

def addAll (p : Pool) (ts : List TypeRef) : Pool := ts.foldl add p

def merge (p q : Pool) : Pool := p.addAll q.types

def ofList (ts : List TypeRef) : Pool := ({} : Pool).addAll ts

def instructions (defs : List Definition) : List Instruction :=
  defs.flatMap fun d => d.members.flatMap fun m => m.method.code

/-- The instances that definitions mention: type operands first, then the base types of plain
classes, then the declaring types of called methods. -/
def mentioned (defs : List Definition) : List TypeRef :=
  let operands := (instructions defs).map (·.operand.type)
  let bases := (defs.filter fun d => d.head.isClass && !d.isGeneric).map (·.head.base)
  let declaring := (instructions defs).filterMap fun c => c.operand.method.map (·.declaring)
  (operands ++ bases ++ declaring).filter TypeRef.isInstance

def ofModule (m : Module) : Pool := ofList (mentioned m.definitions)

/-- The pools of modules joined in order. -/
def ofModules (modules : List (Option Module)) : Pool :=
  (modules.map fun m => (m.map ofModule).getD {}).foldl merge {}

end Pool

end Monomorph
