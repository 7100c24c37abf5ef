import Monomorph.Decimal.Double
import Monomorph.Text.Quoted
import Monomorph.Text.Words

/-!
# Stages, durations and timers

The stages of a run in order, the durations recorded for them, and a timer whose phases are listed
in the order in which they began. Progress events say how far a module file is in a stage, or the
stage as a whole.
-/

namespace Monomorph

/-- A stage of a run. Names from outside may be none of the six. -/
inductive Stage where
  | load
  | index
  | harvest
  | resolve
  | emit
  | report
  | other (name : Text)
deriving DecidableEq

namespace Stage

def all : List Stage := [.load, .index, .harvest, .resolve, .emit, .report]

def name : Stage → Text
  | .load => "load"
  | .index => "index"
  | .harvest => "harvest"
  | .resolve => "resolve"
  | .emit => "emit"
  | .report => "report"
  | .other name => name

def ofName (t : Text) : Stage := (all.find? fun s => s.name == t).getD (.other t)

end Stage

/-- Durations of stages in nanoseconds; the last one set for a stage counts. -/
structure Timings where
  entries : List (Stage × Int64) := []

namespace Timings

def set (t : Timings) (s : Stage) (nanos : Int64) : Timings := ⟨(s, nanos) :: t.entries⟩

def has (t : Timings) (s : Stage) : Bool := (t.entries.lookup s).isSome

/-- The duration of a stage; nothing counts as zero. -/
def duration (t : Timings) (s : Stage) : Int64 := (t.entries.lookup s).getD 0

def sum (t : Timings) (ss : List Stage) : Int64 := (ss.map t.duration).foldl (· + ·) 0

def stageLine (label : String) (nanos : Int64) : Text :=
  label ++ " " ++ (millis nanos.toInt).fixed 1 ++ " ms\n"

/-- The stage listing: a line for each group of stages of which one is recorded. -/
def listing (t : Timings) : Text :=
  let line (label : String) (stages : List Stage) : Text :=
    if stages.any t.has then stageLine label (t.sum stages) else []
  line "loaded" [.load] ++ line "scanned" [.index, .harvest] ++ line "resolved" [.resolve]
    ++ line "written" [.emit, .report]

end Timings

structure Phase where
  name : Text
  nanos : Int64 := 0
  note : Text := []

/-- Phases in the order in which they began. -/
structure Timer where
  phases : List Phase := []

namespace Timer

/-- Begins a phase; its index is the number of phases before it. -/
def begin (t : Timer) (name : Text) : Timer := ⟨t.phases ++ [{ name := name }]⟩

/-- Ends a phase; an index that is none is ignored. -/
def finish (t : Timer) (index : Int) (nanos : Int64) (note : Text) : Timer :=
  if index < 0 then t else ⟨t.phases.modify index.toNat fun p => { p with nanos, note }⟩

def total (t : Timer) : Int64 := (t.phases.map Phase.nanos).foldl (· + ·) 0

def row (name : Text) (nanos : Int64) : Text :=
  "  " ++ Text.padRightChars 20 name ++ " " ++ Text.padLeft 7 ((millis nanos.toInt).fixed 2)
    ++ " ms"

def phaseLine (p : Phase) : Text :=
  row p.name p.nanos ++ (if p.note = [] then [] else "  // " ++ p.note : Text) ++ "\n"

def summary (t : Timer) : Text :=
  "timings:\n" ++ t.phases.flatMap phaseLine ++ row "total" t.total ++ "\n"

end Timer

def timingsText (mode : Text) (timings : Timings) (timer : Timer) : Except Text Text :=
  if mode = "" then .ok []
  else if mode = "stages" then .ok timings.listing
  else if mode = "detail" then .ok timer.summary
  else .error ("invalid --timings value " ++ mode.quoted ++ " (expected stages|detail)")

/-! ## Progress events -/

/-- How far a piece of work is. Names from outside may be none of the four. -/
inductive Status where
  | queued
  | working
  | done
  | error
  | other (name : Text)
deriving DecidableEq

namespace Status

def all : List Status := [.queued, .working, .done, .error]

def name : Status → Text
  | .queued => "queued"
  | .working => "working"
  | .done => "done"
  | .error => "error"
  | .other name => name

def ofName (t : Text) : Status := (all.find? fun s => s.name == t).getD (.other t)

end Status

/-- One event. An empty file means the stage as a whole. -/
structure Progress where
  file : Text := []
  stage : Stage
  status : Status
  error : Option Text := none

end Monomorph
