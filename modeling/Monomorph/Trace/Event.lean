import Monomorph.Text.Quoted
import Monomorph.Text.Words
import Monomorph.Trace.Instant

/-!
# Trace events

Levels, scopes, and events with their two written forms: a line of text for people and an object a
line for tools.
-/

namespace Monomorph.Trace

/-- How much is traced, as a code. -/
structure Level where
  code : UInt8
deriving DecidableEq

/-- How coarse an event is, as a code; lower is coarser. -/
structure Scope where
  code : UInt8
deriving DecidableEq

namespace Scope

/-- A whole invocation. -/
def run : Scope := ⟨1⟩

/-- One stage of a run. -/
def phase : Scope := ⟨2⟩

/-- Work on one module. -/
def module : Scope := ⟨3⟩

/-- The walk of one seed. -/
def seed : Scope := ⟨4⟩

def word (s : Scope) : Text :=
  if s = run then "run" else if s = phase then "phase" else if s = module then "module"
  else if s = seed then "seed" else "unknown"

end Scope

namespace Level

def off : Level := ⟨0⟩

/-- Events go to the ring alone, for a dump after a failure. -/
def error : Level := ⟨1⟩

def phase : Level := ⟨2⟩

def detail : Level := ⟨3⟩

def debug : Level := ⟨4⟩

def word (l : Level) : Text :=
  if l = off then "off" else if l = error then "error" else if l = phase then "phase"
  else if l = detail then "detail" else if l = debug then "debug" else "unknown"

/-- Whether anything at all is traced. -/
def isOn (l : Level) : Bool := l ≠ off

/-- Whether events of a scope are kept. -/
def keeps (l : Level) (s : Scope) : Bool :=
  if l = error ∨ l = phase then s.code ≤ Scope.phase.code
  else if l = detail then s.code ≤ Scope.module.code
  else l = debug

def badLevel (t : Text) : Text :=
  "invalid trace level: " ++ t.quoted ++ " (expected: off|error|phase|detail|debug)"

/-- The level that an option names; the empty option is off. -/
def parse (t : Text) : Except Text Level :=
  let w := t.word
  if w = "off" ∨ w = "" then .ok off
  else if w = "error" then .ok error
  else if w = "phase" then .ok phase
  else if w = "detail" then .ok detail
  else if w = "debug" then .ok debug
  else .error (badLevel t)

end Level

/-- Where events go, as a code. -/
structure Storage where
  code : UInt8
deriving DecidableEq

namespace Storage

def stream : Storage := ⟨1⟩

def ring : Storage := ⟨2⟩

def both : Storage := ⟨3⟩

def word (m : Storage) : Text :=
  if m = stream then "stream" else if m = ring then "ring" else if m = both then "both"
  else "unknown"

def badStorage (t : Text) : Text :=
  "invalid storage mode: " ++ t.quoted ++ " (expected: stream|ring|both)"

def parse (t : Text) : Except Text Storage :=
  let w := t.word
  if w = "stream" then .ok stream
  else if w = "ring" then .ok ring
  else if w = "both" then .ok both
  else .error (badStorage t)

end Storage

/-- What happened, as a code. -/
structure Kind where
  code : UInt8
deriving DecidableEq

namespace Kind

def begin : Kind := ⟨1⟩

def finish : Kind := ⟨2⟩

def point : Kind := ⟨3⟩

def heartbeat : Kind := ⟨4⟩

def word (k : Kind) : Text :=
  if k = begin then "begin" else if k = finish then "end" else if k = point then "point"
  else if k = heartbeat then "heartbeat" else "unknown"

/-- The sign that starts an event's text. -/
def sign (k : Kind) : Text :=
  if k = begin then "→ " else if k = finish then "← " else if k = heartbeat then "♡ "
  else "• "

end Kind

/-- One record of a trace. The extra values are in key order, one for each key. -/
structure Event where
  time : Instant := { sec := 0, nano := 0 }
  seq : Nat := 0
  kind : Kind
  scope : Scope
  span : Nat := 0
  parent : Nat := 0
  name : Text
  detail : Text := []
  extra : List (Text × Text) := []

def textLt : Text → Text → Bool
  | _, [] => false
  | [], _ :: _ => true
  | a :: s, b :: t => if a < b then true else if b < a then false else textLt s t

/-- Sets the value of a key in a list that is in key order. -/
def setExtra (key value : Text) : List (Text × Text) → List (Text × Text)
  | [] => [(key, value)]
  | (k, v) :: rest =>
    if key = k then (k, value) :: rest
    else if textLt key k then (key, value) :: (k, v) :: rest
    else (k, v) :: setExtra key value rest

/-- How events are written, as a code; the second one is objects, every other one text. -/
structure Format where
  code : UInt8
deriving DecidableEq

namespace Format

/-- Chosen by the name of the output. -/
def auto : Format := ⟨0⟩

def text : Format := ⟨1⟩

def objects : Format := ⟨2⟩

end Format

namespace Event

/-- The text form: time, scope, indentation by scope, a sign for the kind, name, detail, extras. -/
def line (e : Event) : Text :=
  e.time.timeOfDay ++ " " ++ Text.padRight 6 e.scope.word ++ " "
    ++ Text.spaces (2 * (e.scope.code.toNat - 1)) ++ e.kind.sign ++ e.name
    ++ (if e.detail = [] then [] else " (" ++ e.detail ++ ")" : Text)
    ++ (if e.extra = [] then []
        else " \x7b" ++ Text.join ", " (e.extra.map fun (k, v) => k ++ "=" ++ v) ++ "\x7d" : Text)
    ++ "\n"

def member (name : String) (value : Text) : Text := Text.json name ++ ":" ++ value

/-- The object form; zero numbers and empty texts are left out where they mean nothing. -/
def object (e : Event) : Text :=
  "\x7b" ++ Text.join "," (
    [member "time" e.time.full.json, member "seq" (Text.ofNat e.seq),
      member "kind" e.kind.word.json, member "scope" e.scope.word.json]
    ++ (if e.span = 0 then [] else [member "span_id" (Text.ofNat e.span)])
    ++ (if e.parent = 0 then [] else [member "parent_id" (Text.ofNat e.parent)])
    ++ [member "name" e.name.json]
    ++ (if e.detail = [] then [] else [member "detail" e.detail.json])
    ++ (if e.extra = [] then []
        else [member "extra"
          ("\x7b" ++ Text.join "," (e.extra.map fun (k, v) => k.json ++ ":" ++ v.json)
            ++ "\x7d")]))
    ++ "\x7d\n"

def render (f : Format) (e : Event) : Text := if f = .objects then e.object else e.line

end Event

end Monomorph.Trace
