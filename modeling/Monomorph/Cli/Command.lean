import Monomorph.Cli.Arguments
import Monomorph.Text.Words

/-!
# Commands

The commands of the tool and their flags, and how a command line names a command: the first
argument that is neither a flag nor the value of one.
-/

namespace Monomorph.Cli

inductive Command where
  | resolve
  | index
  | harvest
  | dump
  | version
  | help
  | completion
deriving DecidableEq

namespace Command

def all : List Command := [.resolve, .index, .harvest, .dump, .version, .help, .completion]

def name : Command → Text
  | .resolve => "resolve"
  | .index => "index"
  | .harvest => "harvest"
  | .dump => "dump"
  | .version => "version"
  | .help => "help"
  | .completion => "completion"

def named? (t : Text) : Option Command := all.find? fun c => c.name = t

def commonFlags : List Flag :=
  [{ name := "color" },
   .switch "quiet",
   { name := "timings", implied := some "stages" },
   { name := "trace" },
   { name := "trace-level" },
   { name := "trace-mode" },
   { name := "trace-ring-size", kind := .int },
   { name := "trace-heartbeat", kind := .duration },
   { name := "cpu-profile" },
   { name := "mem-profile" },
   { name := "runtime-trace" }]

def moduleFlags : List Flag :=
  [{ name := "config" },
   { name := "dir", kind := .texts },
   { name := "include", kind := .texts },
   { name := "exclude", kind := .texts }]

def helpFlag : Flag := { Flag.switch "help" with letter := some 104 }

def versionFlag : Flag := { Flag.switch "version" with letter := some 118 }

def jobsFlag : Flag := { name := "jobs", kind := .int }

def ownFlags : Command → List Flag
  | .resolve =>
    moduleFlags ++
      [{ name := "target" }, { name := "out" }, { name := "seed", kind := .texts },
       { name := "report-dir" }, .switch "no-report", .switch "no-cache", { name := "cache-dir" },
       jobsFlag, { name := "max-depth", kind := .int }, .switch "dry-run", { name := "ui" }]
  | .index => moduleFlags ++ [.switch "plain", { name := "filter" }, jobsFlag]
  | .harvest => moduleFlags ++ [jobsFlag]
  | .dump => [.switch "bodies", .switch "raw"]
  | .version => [.switch "hash", .switch "date", .switch "full", { name := "format" }]
  | .help => []
  | .completion => []

/-- The flags that a command takes, or those of the tool itself. -/
def flags : Option Command → List Flag
  | none => commonFlags ++ [helpFlag, versionFlag]
  | some c => commonFlags ++ c.ownFlags ++ [helpFlag]

end Command

/-! ## Finding the command -/

/-- Whether an argument is a flag that takes the next argument, as far as these flags tell. -/
def takesNext (flags : List Flag) (arg : Text) : Bool :=
  !List.elem 61 arg &&
    match arg with
    | 45 :: 45 :: name => !((Flag.named? flags name).any fun f => f.implied.isSome)
    | [45, b] => !((Flag.lettered? flags b).any fun f => f.implied.isSome)
    | _ => false

/-- The arguments that are neither flags nor values of flags. The value of a flag is left out only
while something stands behind it. -/
def words (flags : List Flag) : List Text → List Text
  | [] => []
  | arg :: rest =>
    if arg = [45, 45] then []
    else if takesNext flags arg then
      match rest with
      | [] => []
      | [_] => []
      | _ :: rest => words flags rest
    else if arg = [] || arg.head? = some 45 then words flags rest
    else arg :: words flags rest

def withoutWord (flags : List Flag) (word : Text) : List Text → List Text
  | [] => []
  | arg :: rest =>
    if arg = [45, 45] then arg :: rest
    else if takesNext flags arg then
      match rest with
      | [] => [arg]
      | value :: rest => arg :: value :: withoutWord flags word rest
    else if arg = word then rest
    else arg :: withoutWord flags word rest

/-- The next row of the table of edit distances: `above` is the row before, for a text that ends
in front of the byte `b`. -/
def distanceRow (b : UInt8) : (left : Nat) → (above : List Nat) → Text → List Nat
  | left, diagonal :: up :: above, c :: t =>
    let here := if b = c then diagonal else min (min left up) diagonal + 1
    here :: distanceRow b here (up :: above) t
  | _, _, _ => []

/-- The number of bytes to add, drop or replace to make one text of another. -/
def editDistance (s t : Text) : Nat :=
  let rows := s.foldl
    (fun row b => (row.headD 0 + 1) :: distanceRow b (row.headD 0 + 1) row t)
    (List.range (t.length + 1))
  rows.getLast?.getD 0

/-- The commands that a mistyped word may mean. Help is never one of them. -/
def suggestions (word : Text) : List Command :=
  Command.all.filter fun c =>
    c ≠ .help && (editDistance word.lower c.name ≤ 2 || Text.startsWith c.name word.lower)

def unknownCommand (word : Text) : Text :=
  let meant := suggestions word
  "unknown command " ++ word.quoted ++ " for \"concretize\""
    ++ (if meant.isEmpty then []
        else "\n\nDid you mean this?\n" ++ meant.flatMap fun c => 9 :: Text.line c.name : Text)

/-- The command that arguments name, if any, and the arguments without its name. A word that names
no command is an error. -/
def findCommand (args : List Text) : Except Text (Option Command × List Text) :=
  match words Command.commonFlags args with
  | [] => .ok (none, args)
  | word :: _ =>
    match Command.named? word with
    | some c => .ok (some c, withoutWord Command.commonFlags word args)
    | none => .error (unknownCommand word)

end Monomorph.Cli
