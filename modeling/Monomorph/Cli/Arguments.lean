import Monomorph.Cli.Value

/-!
# Arguments

A command line is a list of arguments, some of which are flags. A flag takes a value behind an
equals sign or from the next argument, unless it stands for a value by itself. Arguments that are
no flags keep their order, and behind a lone `--` everything is such an argument.
-/

namespace Monomorph.Cli

/-- What a flag holds. -/
inductive Kind where
  | text
  | texts
  | int
  | bool
  | duration

inductive Setting where
  | text (t : Text)
  | texts (ts : List Text)
  | int (n : Int)
  | bool (b : Bool)
  | duration (nanos : Int)

structure Flag where
  name : Text
  kind : Kind := .text
  /-- A letter that stands for the name; only flags with an implied value have one. -/
  letter : Option UInt8 := none
  /-- The value of the flag when none is given; without one it takes the next argument. -/
  implied : Option Text := none

namespace Flag

/-- A flag that is on when it stands alone. -/
def switch (name : Text) : Flag := { name, kind := .bool, implied := some "true" }

def shown (f : Flag) : Text :=
  match f.letter with
  | none => "--" ++ f.name
  | some b => "-" ++ b :: ", --" ++ f.name

def named? (flags : List Flag) (name : Text) : Option Flag := flags.find? fun f => f.name = name

def lettered? (flags : List Flag) (b : UInt8) : Option Flag := flags.find? fun f => f.letter = some b

end Flag

/-- What is wrong with arguments. -/
inductive UsageError where
  | malformed (argument : Text)
  | unknownFlag (name : Text)
  | unknownLetter (letters : Text)
  | noValue (name : Text)
  | invalid (flag : Text) (value cause : Text)

/-- A letter in single quotes. A byte outside of ASCII shows as the lead byte of its code. -/
def quotedLetter (b : UInt8) : Text :=
  let c := if b < 128 then b.toNat else if b < 192 then 0xC2 else 0xC3
  if c = 34 then "'\"'"
  else if c = 39 then "'\\''"
  else "'" ++ Text.quotedChar (Char.ofNat c) ++ "'"

/-- The first of some letters, in single quotes, and all of them. -/
def inLetters (letters : Text) : Text :=
  quotedLetter (letters.headD 0) ++ " in -" ++ letters

def UsageError.message : UsageError → Text
  | .malformed a => "bad flag syntax: " ++ a
  | .unknownFlag name => "unknown flag: --" ++ name
  | .unknownLetter letters => "unknown shorthand flag: " ++ inLetters letters
  | .noValue name => "flag needs an argument: --" ++ name
  | .invalid flag value cause =>
    "invalid argument " ++ value.quoted ++ " for " ++ flag.quoted ++ " flag: " ++ cause

/-- The flags that were set, the last one first, and the other arguments in order. -/
structure Arguments where
  settings : List (Text × Setting) := []
  others : List Text := []

namespace Arguments

variable (a : Arguments)

/-- What a flag was set to last. -/
def setting? (name : Text) : Option Setting := a.settings.lookup name

def text? (name : Text) : Option Text :=
  match a.setting? name with
  | some (.text t) => some t
  | _ => none

/-- A list. One that holds just an empty text counts as empty. -/
def texts (name : Text) : List Text :=
  match a.setting? name with
  | some (.texts [[]]) => []
  | some (.texts ts) => ts
  | _ => []

def int? (name : Text) : Option Int :=
  match a.setting? name with
  | some (.int n) => some n
  | _ => none

def isOn (name : Text) : Bool :=
  match a.setting? name with
  | some (.bool b) => b
  | _ => false

def duration (name : Text) : Int :=
  match a.setting? name with
  | some (.duration n) => n
  | _ => 0

/-- What a text means for a flag. Lists grow with each use of their flag. -/
def meaning (f : Flag) (t : Text) : Except Text Setting :=
  match f.kind with
  | .text => .ok (.text t)
  | .int => (int t).map .int
  | .bool => (bool t).map .bool
  | .duration => (Cli.duration t).map .duration
  | .texts =>
    (fields t).map fun ts =>
      match a.setting? f.name with
      | some (.texts before) => .texts (before ++ ts)
      | _ => .texts ts

def set (f : Flag) (t : Text) : Except UsageError Arguments :=
  match a.meaning f t with
  | .ok s => .ok { a with settings := (f.name, s) :: a.settings }
  | .error cause => .error (.invalid f.shown t cause)

def push (t : Text) : Arguments := { a with others := a.others ++ [t] }

end Arguments

/-- A name and what stands behind the first equals sign. -/
def splitValue (t : Text) : Text × Option Text :=
  let name := t.takeWhile (· ≠ 61)
  (name, if name.length = t.length then none else some (t.drop (name.length + 1)))

/-- Sets flags by letters; a value may follow behind an equals sign. -/
def setLetters (flags : List Flag) (a : Arguments) : Text → Except UsageError Arguments
  | [] => .ok a
  | b :: rest =>
    match Flag.lettered? flags b with
    | none => .error (.unknownLetter (b :: rest))
    | some f =>
      if rest.head? = some 61 && 1 < rest.length then a.set f (rest.drop 1)
      else do setLetters flags (← a.set f (f.implied.getD [])) rest

def parse (flags : List Flag) (a : Arguments) : List Text → Except UsageError Arguments
  | [] => .ok a
  | arg :: rest =>
    match arg with
    | [45, 45] => .ok { a with others := a.others ++ rest }
    | 45 :: 45 :: body =>
      if body.head? = some 45 || body.head? = some 61 then .error (.malformed arg)
      else
        let (name, given) := splitValue body
        match Flag.named? flags name with
        | none => .error (.unknownFlag name)
        | some f =>
          match given.or f.implied with
          | some value => do parse flags (← a.set f value) rest
          | none =>
            match rest with
            | [] => .error (.noValue name)
            | value :: rest => do parse flags (← a.set f value) rest
    | 45 :: b :: letters => do parse flags (← setLetters flags a (b :: letters)) rest
    | _ => parse flags (a.push arg) rest

end Monomorph.Cli
