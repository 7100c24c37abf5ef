import Monomorph.Module.Definition

/-!
# Sample programs

Four small programs that show the ways a generic instance is resolved: along a call chain, through
the arguments of a generic method on a generic type, from the pool of instances in use, and not at
all because its callers only call each other. Each comes with the instance to resolve.
-/

namespace Monomorph

/-- A module and the generic instance in it that is to be resolved. -/
structure Sample where
  module : Module
  seed : TypeRef

namespace Sample

/-- A reference to a method called `name` on a declaring type. -/
def callTo (declaring : TypeRef) (name : Text) (arity : Int64) (isStatic : Bool)
    (params typeArgs : List TypeRef) : MethodRef :=
  { name, declaring, params, ret := .define systemVoid, hasThis := !isStatic, arity, typeArgs }

def construct (declaring : TypeRef) : MethodRef :=
  callTo declaring constructorName 0 false [] []

def code (i : List Instruction) : Option Body := some { stream := some i }

def plain (op : OpCode) : Instruction := { op := op }

def withType (op : OpCode) (t : TypeRef) : Instruction := { op, operand := { type := t } }

def withMethod (op : OpCode) (m : MethodRef) : Instruction :=
  { op, operand := { method := some m } }

/-- A public class without nested types. -/
def cls (name : Text) (generic : List Text) (methods : List MethodDef)
    (base : TypeRef := .absent) : TypeDef :=
  .node { TypeDef.newClass "App" name generic with base, methods := methods.map some } []

def ctor : MethodDef := MethodDef.newConstructor []

def int32 : TypeRef := .define systemInt32

def foo : TypeRef := .define "App.Foo"

def bar : TypeRef := .define "App.Bar"

/-- Two plain classes to serve as arguments. -/
def fooBar : List TypeDef := [cls "Foo" [] [ctor], cls "Bar" [] [ctor]]

/-- A generic class with nothing but a constructor. -/
def box : TypeDef := cls "Box`1" ["T"] [ctor]

/-- A static method whose body ends with a return. -/
def staticMethod (name : Text) (generic : List Text) (body : List Instruction) : MethodDef :=
  { MethodDef.new name MethodAttr.isStatic generic with body := code (body ++ [plain .ret]) }

/-- A call of a static method of `Host` with one type argument. -/
def hostCall (name : Text) (t : TypeRef) : Instruction :=
  withMethod .call (callTo (.define "App.Host") name 1 true [] [t])

/-- A module with `Box`, `Foo` and a class `Host` with the given methods. -/
def hostModule (methods : List MethodDef) : Module :=
  .new "App" [box, cls "Foo" [] [ctor], cls "Host" [] methods]

/-- `Program.Run` constructs `Repo<int>` and calls a method on it that constructs `Repo<T>`. -/
def repo : Sample :=
  let seed := TypeRef.applied "App.Repo`1" [.typeParam "T" 0 "App.Repo`1"]
  let used := TypeRef.applied "App.Repo`1" [int32]
  let some := { MethodDef.new "SomeMethod" 0 [] with
    body := code [withMethod .newobj (construct seed), plain .pop, plain .ret] }
  let run := { MethodDef.new "Run" MethodAttr.isStatic [] with
    body := code
      [withMethod .newobj (construct used),
        withMethod .callvirt (callTo used "SomeMethod" 0 false [] []), plain .ret] }
  { seed, module := .new "App" [cls "Repo`1" ["T"] [ctor, some], cls "Program" [] [run]] }

/-- `Container<T>.Method<U>` mentions `Box<U>` and is called once, as
`Container<Foo>.Method<Bar>`. -/
def offset : Sample :=
  let t := TypeRef.typeParam "T" 0 "App.Container`1"
  let u := TypeRef.methodParam "U" 0 "App.Container`1::Method"
  let seed := TypeRef.applied "App.Box`1" [u]
  let method := { MethodDef.new "Method" 0 ["U"] with
    params := [t, u],
    body := code [withType .ldtoken seed, plain .pop, plain .ret] }
  let run := { MethodDef.new "Run" MethodAttr.isStatic [] with
    body := code
      [plain .ldnull, plain .ldnull,
        withMethod .call
          (callTo (.applied "App.Container`1" [foo]) "Method" 1 false [t, u] [bar]), plain .ret] }
  { seed,
    module := .new "App"
      (fooBar ++ [box, cls "Container`1" ["T"] [method], cls "Program" [] [run]]) }

/-- `Wrapper<T>.Run` mentions `Box<T>` and has no callers; the program constructs `Wrapper<Foo>`
and `Wrapper<Bar>`, and `Special` derives from `Wrapper<Bar>`. -/
def pool : Sample :=
  let seed := TypeRef.applied "App.Box`1" [.typeParam "T" 0 "App.Wrapper`1"]
  let wrapper (t : TypeRef) := TypeRef.applied "App.Wrapper`1" [t]
  let run := { MethodDef.new "Run" 0 [] with
    body := code [withType .ldtoken seed, plain .pop, plain .ret] }
  let start := { MethodDef.new "Main" MethodAttr.isStatic [] with
    body := code
      [withMethod .newobj (construct (wrapper foo)), plain .pop,
        withMethod .newobj (construct (wrapper bar)), plain .pop, plain .ret] }
  { seed,
    module := .new "App"
      (fooBar ++ [box, cls "Wrapper`1" ["T"] [ctor, run],
        cls "Special" [] [ctor] (wrapper bar), cls "Program" [] [start]]) }

/-- `A<T>` and `B<T>` call each other, `A` mentions `Box<T>`, and nothing else calls them. -/
def cycle : Sample :=
  let a := TypeRef.methodParam "T" 0 "App.Host::A"
  let b := TypeRef.methodParam "T" 0 "App.Host::B"
  let host := TypeRef.define "App.Host"
  let seed := TypeRef.applied "App.Box`1" [a]
  let first := { MethodDef.new "A" MethodAttr.isStatic ["T"] with
    body := code
      [withType .ldtoken seed, plain .pop,
        withMethod .call (callTo host "B" 1 true [] [a]), plain .ret] }
  let second := { MethodDef.new "B" MethodAttr.isStatic ["T"] with
    body := code [withMethod .call (callTo host "A" 1 true [] [b]), plain .ret] }
  { seed, module := .new "App" [box, cls "Host" [] [first, second]] }

/-- The samples by name. -/
def named : List (Text × Sample) :=
  [("repo", repo), ("offset", offset), ("pool", pool), ("cycle", cycle)]

end Sample

end Monomorph
