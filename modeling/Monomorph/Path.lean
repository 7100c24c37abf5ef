import Monomorph.Text.Basic

/-!
# Paths

A path is text with names between slashes. These functions look at the text alone and never at
files: `clean` gives the shortest path that means the same, and the others take paths apart and
put them together.
-/

namespace Monomorph.Path

def slash : UInt8 := 47

/-- The name of the directory itself. -/
def here : Text := "."

/-- The name of the enclosing directory. -/
def up : Text := ".."

def isAbsolute (p : Text) : Bool := p.head? = some slash

/-- The names of a path in order, empty ones left out. -/
def names (p : Text) : List Text := (Text.splitOnByte slash p).filter fun n => !n.isEmpty

/-- Adds one name to the cleaned names before it, given last first. A name for the parent takes
the last name away; at the root it is dropped, and behind other such names it stays. -/
def cleanStep (rooted : Bool) (before : List Text) (name : Text) : List Text :=
  if name = here then before
  else if name = up then
    match before with
    | [] => if rooted then [] else [name]
    | last :: rest => if last = up then name :: before else rest
  else name :: before

/-- The shortest path that means the same. -/
def clean (p : Text) : Text :=
  let rooted := isAbsolute p
  let body := Text.join "/" ((names p).foldl (cleanStep rooted) []).reverse
  if rooted then "/" ++ body else if body = [] then here else body

/-- The parts as one clean path; empty parts in front are left out. -/
def join (parts : List Text) : Text :=
  match parts.dropWhile List.isEmpty with
  | [] => []
  | rest => clean (Text.join "/" rest)

/-- The text behind the last slash. -/
def lastName (p : Text) : Text := (p.reverse.takeWhile (· ≠ slash)).reverse

def upToLastSlash (p : Text) : Text := (p.reverse.dropWhile (· ≠ slash)).reverse

def parent (p : Text) : Text := clean (upToLastSlash p)

def dropTrailingSlashes (p : Text) : Text := (p.reverse.dropWhile (· = slash)).reverse

/-- The last name of a path; an empty path is the current directory. -/
def base (p : Text) : Text :=
  if p = [] then here
  else
    match lastName (dropTrailingSlashes p) with
    | [] => "/"
    | name => name

/-- The last name's part from its last dot on; nothing without a dot. -/
def extension (p : Text) : Text :=
  let name := lastName p
  if List.elem 46 name then 46 :: (name.reverse.takeWhile (· ≠ 46)).reverse else []

/-- The paths of the directories around a path, innermost first, each up to and including its
slashes. -/
def enclosing (p : Text) : List Text :=
  (((List.range p.length).filter fun i =>
    0 < i && p[i - 1]? = some slash && p[i]? ≠ some slash).map p.take).reverse

def absolute (dir p : Text) : Text := if isAbsolute p then clean p else join [dir, p]

end Monomorph.Path
