import Monomorph.Text.Quoted
import Monomorph.Text.Words

/-!
# Build information

The version line and the two forms of the version report.
-/

namespace Monomorph

structure BuildInfo where
  version : Text
  commit : Text := []
  date : Text := []

namespace BuildInfo

def current : BuildInfo := { version := "0.3.0-dev" }

def line (b : BuildInfo) : Text :=
  "concretize " ++ b.version
    ++ (if b.commit = [] then [] else " (" ++ b.commit ++ ")" : Text)
    ++ (if b.date = [] then [] else " built " ++ b.date : Text)

/-- The information with white space trimmed; an empty version is a development build. -/
def clean (b : BuildInfo) : BuildInfo :=
  { version := if b.version.trim = [] then "dev" else b.version.trim,
    commit := b.commit.trim, date := b.date.trim }

/-- The text, or a word for a missing one. -/
def orUnknown (t : Text) : Text := if t = [] then "unknown" else t

/-- Drops what stands up to and including the end of a colour sequence. -/
def afterSequence (t : Text) : Text := (t.dropWhile (· ≠ 109)).drop 1

/-- The text without colour sequences. Each step drops at least one byte, which bounds the
recursion. -/
def stripColourWith : (fuel : Nat) → Text → Text
  | 0, _ => []
  | _ + 1, [] => []
  | fuel + 1, b :: t =>
    if b = 27 ∧ t.head? = some 91 then stripColourWith fuel (afterSequence t)
    else b :: stripColourWith fuel t

/-- The text without colour sequences. A sequence that does not end runs to the end of the text. -/
def stripColour (t : Text) : Text := stripColourWith (t.length + 1) t

def pretty (b : BuildInfo) (hash date : Bool) : Text :=
  "concretize " ++ b.version ++ "\n"
    ++ (if hash then "commit: " ++ orUnknown b.commit ++ "\n" else [] : Text)
    ++ (if date then "built:  " ++ orUnknown b.date ++ "\n" else [] : Text)

def object (b : BuildInfo) (hash date : Bool) : Text :=
  let member (name : String) (value : Text) : Text := "  " ++ Text.json name ++ ": " ++ value.json
  "\x7b\n" ++ Text.join ",\n" (
    [member "tool" "concretize", member "version" (stripColour b.version)]
    ++ (if hash then [member "git_commit" (orUnknown b.commit)] else [])
    ++ (if date then [member "build_date" (orUnknown b.date)] else []))
    ++ "\n\x7d\n"

end BuildInfo

end Monomorph
