import Monomorph.Text.Basic

/-!
# Type references

A reference names a declared type, applies a generic definition to arguments, or stands for a
generic parameter. On the wire every reference carries all six fields whatever its kind, unknown
kinds occur, and a place for a reference may be empty; `TypeRef` keeps all of that, and the
functions below say which fields each kind uses.

`TypeRef.fullName` is the name that people read and that sets of concrete types are keyed on;
`TypeRef.key` also tells parameters of equal names apart.
-/

namespace Monomorph

/-- What a type reference refers to, as its wire code. -/
structure TypeKind where
  code : UInt8
deriving DecidableEq

namespace TypeKind

def definition : TypeKind := ⟨1⟩

def inst : TypeKind := ⟨2⟩

def parameter : TypeKind := ⟨3⟩

def word (k : TypeKind) : Text :=
  if k = definition then "definition"
  else if k = inst then "instance"
  else if k = parameter then "parameter"
  else "invalid"

end TypeKind

/-- What declares a generic parameter, as its wire code. -/
structure ParamKind where
  code : UInt8
deriving DecidableEq

namespace ParamKind

def type : ParamKind := ⟨1⟩

def method : ParamKind := ⟨2⟩

def word (k : ParamKind) : Text :=
  if k = type then "type" else if k = method then "method" else "invalid"

end ParamKind

/-- A reference to a type, or an empty place for one. `position`, `param` and `owner` matter for
parameters, `args` for instances; the wire keeps them for every kind. -/
inductive TypeRef where
  | absent
  | node (kind : TypeKind) (name : Text) (args : List TypeRef) (position : Int64)
      (param : ParamKind) (owner : Text)

namespace TypeRef

instance : Inhabited TypeRef := ⟨absent⟩

mutual
/-- Equality of references can be decided, field by field. -/
def decEq : (t o : TypeRef) → Decidable (t = o)
  | .absent, .absent => .isTrue rfl
  | .absent, .node .. => .isFalse nofun
  | .node .., .absent => .isFalse nofun
  | .node kind name args position param owner, .node kind' name' args' position' param' owner' =>
    have := decEqEach args args'
    decidable_of_iff (kind = kind' ∧ name = name' ∧ args = args' ∧ position = position' ∧
      param = param' ∧ owner = owner') (by simp)

def decEqEach : (ts os : List TypeRef) → Decidable (ts = os)
  | [], [] => .isTrue rfl
  | [], _ :: _ => .isFalse nofun
  | _ :: _, [] => .isFalse nofun
  | t :: ts, o :: os =>
    have := decEq t o
    have := decEqEach ts os
    decidable_of_iff (t = o ∧ ts = os) (by simp)
end

instance : DecidableEq TypeRef := decEq

/-- The reference with no field set; its kind is unknown. -/
def blank : TypeRef := .node ⟨0⟩ [] [] 0 ⟨0⟩ []

def define (name : Text) : TypeRef := .node .definition name [] 0 ⟨0⟩ []

/-- Applies the generic definition called `name` to arguments. -/
def applied (name : Text) (args : List TypeRef) : TypeRef := .node .inst name args 0 ⟨0⟩ []

/-- The generic parameter of the type `owner` at a position. -/
def typeParam (name : Text) (position : Int64) (owner : Text) : TypeRef :=
  .node .parameter name [] position .type owner

def methodParam (name : Text) (position : Int64) (owner : Text) : TypeRef :=
  .node .parameter name [] position .method owner

def isPresent : TypeRef → Bool
  | .absent => false
  | .node .. => true

def isInstance : TypeRef → Bool
  | .absent => false
  | .node kind .. => kind = .inst

def isParameter : TypeRef → Bool
  | .absent => false
  | .node kind .. => kind = .parameter

/-- The arguments, whatever the kind. -/
def args : TypeRef → List TypeRef
  | .absent => []
  | .node _ _ args _ _ _ => args

def name : TypeRef → Text
  | .absent => []
  | .node _ name _ _ _ _ => name

/-- The name of the declared type referred to; empty for parameters. -/
def definitionName : TypeRef → Text
  | .absent => []
  | .node kind name _ _ _ _ => if kind = .parameter then [] else name

mutual
/-- Whether a generic parameter occurs in the reference, at any depth of arguments. -/
def hasParameter : TypeRef → Bool
  | .absent => false
  | .node kind _ args _ _ _ =>
    if kind = .parameter then true
    else if kind = .inst then anyParameter args
    else false

def anyParameter : List TypeRef → Bool
  | [] => false
  | t :: ts => t.hasParameter || anyParameter ts
end

/-- A reference of known kind in which no parameter occurs. An empty place among the arguments
does no harm here. -/
def isConcrete : TypeRef → Bool
  | .absent => false
  | .node kind name args position param owner =>
    kind.code ≠ 0 && !(node kind name args position param owner).hasParameter

mutual
/-- The text of a reference; with `qualified`, a parameter is written by kind, position and owner
instead of by its declared name. -/
def render (qualified : Bool) : TypeRef → Text
  | .absent => "<nil>"
  | .node kind name args position param owner =>
    if kind = .parameter then
      if qualified then
        (if param = .method then "!!" else "!") ++ Text.ofInt position.toInt ++ "@" ++ owner
      else name
    else if kind = .inst then name ++ "<" ++ Text.join "," (renderEach qualified args) ++ ">"
    else name

def renderEach (qualified : Bool) : List TypeRef → List Text
  | [] => []
  | t :: ts => t.render qualified :: renderEach qualified ts
end

/-- The name as it is printed and as sets of concrete types compare it. -/
def fullName (t : TypeRef) : Text := t.render false

/-- The name with qualified parameters, so that two parameters of one name differ. -/
def key (t : TypeRef) : Text := t.render true

/-- Two references are equal when both places are empty or their keys agree. -/
def equal : TypeRef → TypeRef → Bool
  | .absent, .absent => true
  | .absent, .node .. => false
  | .node .., .absent => false
  | t, o => t.key == o.key

mutual
/-- The text of a parameter type in a method signature: generic parameters by position alone, and
nothing at all for an empty place. -/
def signatureText : TypeRef → Text
  | .absent => []
  | .node kind name args position param _ =>
    if kind = .parameter then
      (if param = .method then "!!" else "!") ++ Text.ofInt position.toInt
    else if kind = .inst then name ++ "<" ++ Text.join "," (signatureTexts args) ++ ">"
    else name

def signatureTexts : List TypeRef → List Text
  | [] => []
  | t :: ts => t.signatureText :: signatureTexts ts
end

theorem renderEach_eq_map (qualified : Bool) (ts : List TypeRef) :
    renderEach qualified ts = ts.map (render qualified) := by
  induction ts with
  | nil => rfl
  | cons t ts ih => simp [renderEach, ih]

theorem anyParameter_eq_any (ts : List TypeRef) : anyParameter ts = ts.any hasParameter := by
  induction ts with
  | nil => rfl
  | cons t ts ih => simp [anyParameter, ih]

theorem signatureTexts_eq_map (ts : List TypeRef) :
    signatureTexts ts = ts.map signatureText := by
  induction ts with
  | nil => rfl
  | cons t ts ih => simp [signatureTexts, ih]

end TypeRef

/-- Core library types. -/
def systemObject : Text := "System.Object"

@[inherit_doc systemObject]
def systemVoid : Text := "System.Void"

@[inherit_doc systemObject]
def systemString : Text := "System.String"

@[inherit_doc systemObject]
def systemInt32 : Text := "System.Int32"

end Monomorph
