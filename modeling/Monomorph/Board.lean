import Monomorph.Stage
import Monomorph.Text.CellWidth

/-!
# The progress board

What a watcher of a run sees: a title, a line for each module file with what is being done to it, a
count of finished modules and a bar. Events of the run and messages of the terminal change the
board one at a time; `Board.view` draws it.
-/

namespace Monomorph

/-- What a board says about a file or a run. -/
inductive Label where
  | queued
  | done
  | error
  | doing (stage : Stage)
deriving DecidableEq

namespace Label

/-- The word for work in a stage; an unknown stage has none. -/
def activity? : Stage → Option Text
  | .load => some "loading"
  | .index => some "indexing"
  | .harvest => some "harvesting"
  | .resolve => some "resolving"
  | .emit => some "emitting"
  | .report => some "reporting"
  | .other _ => none

def text : Label → Text
  | .queued => "queued"
  | .done => "done"
  | .error => "error"
  | .doing s => (activity? s).getD []

/-- What an event lets a board say, if anything. -/
def of? (stage : Stage) : Status → Option Label
  | .queued => some .queued
  | .done => some .done
  | .error => some .error
  | .working => if (activity? stage).isSome then some (.doing stage) else none
  | .other _ => none

def isFinal (l : Label) : Bool := l = .done || l = .error

end Label

structure BoardItem where
  path : Text
  label : Label := .queued
  stage : Stage := .load

namespace BoardItem

/-- How much of a module counts as done while it is in a stage. -/
def stageShare : Stage → Double
  | .load => .ofRatio false 1 10
  | .index => .ofRatio false 3 10
  | .harvest => .ofRatio false 6 10
  | _ => .ofRatio false 0 1

def share (i : BoardItem) : Double :=
  if i.label.isFinal then .ofRatio false 1 1 else stageShare i.stage

end BoardItem

inductive BoardMessage where
  | progress (event : Progress)
  | finished
  | tick
  | resize (width : Int)
  | other

structure Board where
  title : Text
  items : List BoardItem := []
  /-- What is said about the run as a whole. -/
  current : Option Label := none
  width : Int := 80
  barWidth : Int := 76
  /-- The share at which the bar aims. -/
  aim : Double := .ofRatio false 0 1
  ticks : Nat := 0
  done : Bool := false

namespace Board

def start (title : Text) (files : List Text) : Board :=
  { title, items := files.map fun path => { path := path } }

def finished (b : Board) : Nat := b.items.countP fun i => i.label.isFinal

/-- The share of the work that is done: the mean of the modules. -/
def share (items : List BoardItem) : Double :=
  ((items.map BoardItem.share).foldl Double.addSameSign (.ofRatio false 0 1)).divNat items.length

/-- The line of a file; of equal paths the last one counts. -/
def line? (b : Board) (file : Text) : Option Nat :=
  (b.items.zipIdx.reverse.find? fun p => p.1.path = file).map Prod.snd

def relabel (b : Board) (line : Nat) (label : Label) (stage : Stage) : Board :=
  { b with items := b.items.modify line fun i => { i with label, stage } }

/-- Takes in an event. One for the run changes what the title says, one for a file its line and the
bar; an event without a label leaves what is said. -/
def apply (b : Board) (e : Progress) : Board :=
  let label := Label.of? e.stage e.status
  if e.file = [] then { b with current := label.or b.current }
  else
    match b.line? e.file with
    | none => b
    | some line =>
      let b := (label.map fun l => b.relabel line l e.stage).getD b
      { b with aim := share b.items }

/-- Takes in a message. The answer says whether the board asks to be called again. -/
def update (b : Board) : BoardMessage → Board × Bool
  | .progress e => (b.apply e, true)
  | .finished => ({ b with done := true }, true)
  | .tick => if b.done then (b, false) else ({ b with ticks := b.ticks + 1 }, true)
  | .resize width =>
    (if 0 < width then { b with width, barWidth := width - 4 } else b, false)
  | .other => (b, false)

/-! ## Drawing -/

def frames : List Text := ["⣾ ", "⣽ ", "⣻ ", "⢿ ", "⡿ ", "⣟ ", "⣯ ", "⣷ "]

def frame (b : Board) : Text := (frames[b.ticks % frames.length]?).getD []

/-- Lines brought to one width with spaces. -/
def squared (t : Text) : Text :=
  match Text.splitOnByte 10 t with
  | [single] => single
  | lines =>
    let width := (lines.map Text.cells).foldl max 0
    Text.join "\n" (lines.map fun l => l ++ Text.spaces (width - l.cells))

/-- A text for display: tabs as four spaces and plain line ends. -/
def plain : Text → Text
  | [] => []
  | 13 :: 10 :: rest => 10 :: plain rest
  | 9 :: rest => Text.spaces 4 ++ plain rest
  | b :: rest => b :: plain rest

def header (b : Board) : Text :=
  let named :=
    match b.current with
    | none => b.title
    | some l => b.title ++ " (" ++ l.text ++ ")"
  squared (plain (if b.done then "done: " ++ named else b.frame ++ " " ++ named))

def itemLine (b : Board) (i : BoardItem) : Text :=
  Text.line ("  " ++ Text.padLeft 12 i.label.text ++ " "
    ++ Text.shortened (max 20 (b.width - 16)) i.path)

/-- A cell of the bar that is filled, and one that is not. -/
def fullCell : Text := "█"

@[inherit_doc fullCell]
def emptyCell : Text := "░"

/-- The bar. It moves only by animation, so that a still picture shows it empty until the run is
done. -/
def bar (b : Board) : Text :=
  let percent : Text := if b.done then " 100%" else "   0%"
  let cells := (b.barWidth - percent.length).toNat
  (List.replicate cells (if b.done then fullCell else emptyCell)).flatten ++ percent

/-- The board as text; without modules there is nothing to show. -/
def view (b : Board) : Text :=
  if b.items.isEmpty then []
  else
    b.header ++ "\n\n" ++ b.items.flatMap b.itemLine
      ++ "\n  " ++ Text.ofNat b.finished ++ "/" ++ Text.ofNat b.items.length ++ " modules\n"
      ++ b.bar ++ "\n"

/-- All boards that a run's events lead through, the last one when they have ended. -/
def replay (b : Board) : List Progress → List Board
  | [] => [(b.update .finished).1]
  | e :: es =>
    let next := b.apply e
    next :: next.replay es

end Board

end Monomorph
