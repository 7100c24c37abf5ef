import Monomorph.Module.Definition

/-!
# Assembling modules

A draft is a set of numbered types and methods that are attached to each other and to a module
step by step, in any order. Each part remembers what it was last attached to: attaching a type to
the module sets the links of everything below it, attaching a type to a type sets only the links of
that type and its methods, and attaching a method sets the method's link. `Draft.definitions` reads
the links as they are, `Draft.module?` the forest that would be stored.
-/

namespace Monomorph

/-- A type under construction; numbers refer to the draft's types and methods. -/
structure DraftType where
  head : TypeHead
  nested : List Nat := []
  methods : List Nat := []
  declaring : Option Nat := none
  module : Option Nat := none

structure DraftMethod where
  method : MethodDef
  declaring : Option Nat := none

/-- A module under construction, with the numbers of its top-level types. -/
structure DraftModule where
  name : Text
  types : List Nat := []

/-- The parts made so far. The module that is attached to is the last one started. -/
structure Draft where
  modules : List DraftModule := []
  types : List DraftType := []
  methods : List DraftMethod := []

namespace Draft

def newModule (d : Draft) (name : Text) : Draft := { d with modules := d.modules ++ [{ name := name }] }

/-- Makes a type; its number is the count of types before it. -/
def newType (d : Draft) (head : TypeHead) : Draft := { d with types := d.types ++ [{ head := head }] }

/-- Makes a method; its number is the count of methods before it. -/
def newMethod (d : Draft) (method : MethodDef) : Draft :=
  { d with methods := d.methods ++ [{ method := method }] }

def current? (d : Draft) : Option Nat :=
  if d.modules.isEmpty then none else some (d.modules.length - 1)

def linkMethods (d : Draft) (methods : List Nat) (type : Nat) : Draft :=
  { d with
    methods := methods.foldl
      (fun ms m => ms.modify m fun x => { x with declaring := some type }) d.methods }

/-- Sets the links of a type, its methods and everything nested in it. The nesting is at most as
deep as there are types, which bounds the recursion. -/
def link : (fuel : Nat) → Draft → (module : Nat) → (declaring : Option Nat) → (type : Nat) → Draft
  | 0, d, _, _, _ => d
  | fuel + 1, d, module, declaring, type =>
    match d.types[type]? with
    | none => d
    | some t =>
      let d :=
        { d with
          types := d.types.modify type fun x => { x with declaring, module := some module } }
      let d := d.linkMethods t.methods type
      t.nested.foldl (fun d n => link fuel d module (some type) n) d

def enlist (d : Draft) (module type : Nat) : Draft :=
  { d with modules := d.modules.modify module fun x => { x with types := x.types ++ [type] } }

def attach (d : Draft) (module type : Nat) : Option Draft := do
  let _ ← d.modules[module]?
  let _ ← d.types[type]?
  some ((d.enlist module type).link (d.types.length + 1) module none type)

/-- Attaches a type to the module that is attached to. -/
def addType (d : Draft) (type : Nat) : Option Draft := do d.attach (← d.current?) type

def addNested (d : Draft) (outer inner : Nat) : Option Draft := do
  let o ← d.types[outer]?
  let i ← d.types[inner]?
  let d :=
    { d with
      types := d.types.modify inner fun x =>
        { x with declaring := some outer, module := o.module } }
  let d :=
    { d with
      types := d.types.modify outer fun x => { x with nested := x.nested ++ [inner] } }
  some (d.linkMethods i.methods inner)

def addMethod (d : Draft) (type method : Nat) : Option Draft := do
  let _ ← d.types[type]?
  let _ ← d.methods[method]?
  let d := d.linkMethods [method] type
  some
    { d with
      types := d.types.modify type fun x => { x with methods := x.methods ++ [method] } }

def modifyType (d : Draft) (type : Nat) (f : TypeHead → TypeHead) : Option Draft := do
  let _ ← d.types[type]?
  some { d with types := d.types.modify type fun x => { x with head := f x.head } }

def modifyMethod (d : Draft) (method : Nat) (f : MethodDef → MethodDef) : Option Draft := do
  let _ ← d.methods[method]?
  some { d with methods := d.methods.modify method fun x => { x with method := f x.method } }

/-- The full name of a type by its links. A chain of enclosing types is at most as long as there
are types, which bounds the recursion. -/
def fullNameWith : (fuel : Nat) → Draft → (type : Nat) → Text
  | 0, _, _ => []
  | fuel + 1, d, type =>
    match d.types[type]? with
    | none => []
    | some t => t.head.fullNameIn (t.declaring.map (fullNameWith fuel d))

def fullName (d : Draft) (type : Nat) : Text := fullNameWith (d.types.length + 1) d type

def owner (d : Draft) (type : Nat) : Owner :=
  { fullName := d.fullName type, generic := ((d.types[type]?).map (·.head.generic)).getD [] }

/-- A method with its link. -/
def member? (d : Draft) (method : Nat) : Option Member :=
  (d.methods[method]?).map fun m => { method := m.method, owner := m.declaring.map d.owner }

/-- A type as it would be stored, without the types nested in it. -/
def storedHead (d : Draft) (t : DraftType) : TypeHead :=
  { t.head with methods := t.methods.map fun k => (d.methods[k]?).map (·.method) }

/-- A type with its links, as part of a module. The module link is intact when it names that
module, the link of a method when it names this type. -/
def definitionIn? (d : Draft) (module : Option Nat) (type : Nat) : Option Definition :=
  (d.types[type]?).map fun t =>
    { head := d.storedHead t, fullName := d.fullName type,
      declaring := t.declaring.map d.fullName,
      moduleName := t.module.bind fun m => (d.modules[m]?).map (·.name),
      linked := t.module == module,
      members := t.methods.filterMap fun k =>
        (d.methods[k]?).map fun m =>
          { method := m.method, owner := m.declaring.map d.owner,
            linked := m.declaring == some type } }

def definition? (d : Draft) (type : Nat) : Option Definition := d.definitionIn? d.current? type

/-- The numbers of a type and of the types nested in it, outer before inner. -/
def preorder : (fuel : Nat) → Draft → (type : Nat) → List Nat
  | 0, _, _ => []
  | fuel + 1, d, type =>
    type :: (((d.types[type]?).map (·.nested)).getD []).flatMap (preorder fuel d)

def module? (d : Draft) : Option DraftModule := d.current?.bind fun m => d.modules[m]?

/-- The definitions of a module, with their links. -/
def definitionsIn (d : Draft) (module : Nat) : List Definition :=
  (((d.modules[module]?).map (·.types)).getD []).flatMap fun t =>
    (preorder (d.types.length + 1) d t).filterMap fun k =>
      (d.definitionIn? (some module) k).filter fun x => x.head.name ≠ placeholderName

def definitions (d : Draft) : List Definition := (d.current?.map d.definitionsIn).getD []

/-- A type with everything attached below it. -/
def tree : (fuel : Nat) → Draft → (type : Nat) → TypeDef
  | 0, _, _ => .absent
  | fuel + 1, d, type =>
    match d.types[type]? with
    | none => .absent
    | some t => .node (d.storedHead t) (t.nested.map (tree fuel d))

def storedIn? (d : Draft) (module : Nat) : Option Module :=
  (d.modules[module]?).map fun m =>
    Module.new m.name (m.types.map (tree (d.types.length + 1) d))

/-- The module attached to as it would be stored. -/
def stored? (d : Draft) : Option Module := d.current?.bind d.storedIn?

end Draft

end Monomorph
