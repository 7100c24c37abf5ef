import Monomorph.Module.Definition
import Monomorph.Text.Quoted

/-!
# Outlines

The structures of a module as they were read, field by field and with their types, for looking into
a file. References and methods stand by their names. An outline is a tree of lines; what closes a
node stands in line with what opens it.
-/

namespace Monomorph

/-- A line, or lines between an opening and a closing one. -/
inductive Outline where
  | line (t : Text)
  | node (opening : Text) (items : List Outline) (closing : Text)

namespace Outline

mutual
/-- The text of an outline so many steps in; the first line has no indent of its own. -/
def render (depth : Nat) : Outline → Text
  | .line t => t
  | .node opening items closing =>
    Text.line opening ++ renderItems (depth + 1) items ++ Text.spaces (2 * depth) ++ closing

/-- The text of items, one under the other with commas between them. -/
def renderItems (depth : Nat) : List Outline → Text
  | [] => []
  | [item] => Text.spaces (2 * depth) ++ Text.line (render depth item)
  | item :: items =>
    Text.spaces (2 * depth) ++ render depth item ++ ",\n" ++ renderItems depth items
end

def field (name : Text) : Outline → Outline
  | .line t => .line (name ++ ": " ++ t)
  | .node opening items closing => .node (name ++ ": " ++ opening) items closing

def typed (type : Text) (value : Text) : Outline := .line ("(" ++ type ++ ") " ++ value)

/-- What a pointer leads to, in short. -/
def pointer (type : Text) (shown : Text) : Outline := .line ("(*" ++ type ++ ")(" ++ shown ++ ")")

/-- A text with its length. -/
def text (t : Text) : Outline :=
  typed "string"
    ((if t = [] then [] else "(len=" ++ Text.ofNat t.length ++ ") " : Text) ++ t.quoted)

def record (type : Text) (fields : List (Text × Outline)) : Outline :=
  .node ("(*" ++ type ++ ")(\x7b") (fields.map fun (name, o) => field name o) "\x7d)"

def list (type : Text) : Option (List Outline) → Outline
  | none => .line ("([]" ++ type ++ ") <nil>")
  | some items =>
    .node ("([]" ++ type ++ ") "
        ++ (if items.isEmpty then [] else "(len=" ++ Text.ofNat items.length ++ ") " : Text)
        ++ "\x7b")
      items "\x7d"

/-- A list that a document holds only if it has items or is marked as held. -/
def heldList (type : Text) (held : Bool) (items : List Outline) : Outline :=
  list type (if items.isEmpty && !held then none else some items)

end Outline

namespace TypeDef

/-- A pointer to something further out. -/
def shownAbove (type : Text) : Outline := .pointer type "<already shown>"

mutual
/-- The outline of a type that stands inside `outer`, or at the top. -/
def outline (outer : Option Text) : TypeDef → Outline
  | .absent => .pointer "meta.TypeDef" "<nil>"
  | .node head nested =>
    let fullName := head.fullNameIn outer
    let owner : Owner := { fullName, generic := head.generic }
    let methods : List Outline := head.methods.map fun m =>
      .pointer "meta.MethodDef"
        ((m.map fun method => Member.fullName { method, owner := some owner }).getD "<nil>")
    .record "meta.TypeDef"
      [("Namespace", .text head.ns),
       ("Name", .text head.name),
       ("Attrs", .typed "meta.TypeAttrs" (Text.ofNat head.attrs.toNat)),
       ("GenericParams", .heldList "string" head.empties.generic (head.generic.map .text)),
       ("BaseType", .pointer "meta.TypeRef"
          (if head.base.isPresent then head.base.fullName else "<nil>")),
       ("Nested", .heldList "*meta.TypeDef" head.empties.nested (outlines (some fullName) nested)),
       ("Methods", .heldList "*meta.MethodDef" head.empties.methods methods),
       ("declaring",
          if outer.isSome then shownAbove "meta.TypeDef" else .pointer "meta.TypeDef" "<nil>"),
       ("module", shownAbove "meta.Module")]

def outlines (outer : Option Text) : List TypeDef → List Outline
  | [] => []
  | t :: ts => outline outer t :: outlines outer ts
end

end TypeDef

/-- The outline of a module that was read from a path. -/
def Module.outline (path : Text) (m : Module) : Outline :=
  .record "meta.Module"
    [("Name", .text m.name),
     ("Version", .text m.version),
     ("Types", .list "*meta.TypeDef" (m.listed.map (TypeDef.outlines none))),
     ("path", .text path)]

end Monomorph
