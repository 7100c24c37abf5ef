import Monomorph.Manifest

/-!
# Settings

What a run goes by: the configuration of the project with the options of the command line in its
place where they are given.
-/

namespace Monomorph

/-- Options that stand for configured values. -/
structure Overrides where
  target : Option Text := none
  output : Option Text := none
  seeds : List Text := []
  reportDir : Option Text := none
  noReport : Bool := false
  noCache : Bool := false
  cacheDir : Option Text := none
  jobs : Option Int := none
  maxDepth : Option Int := none

structure Settings where
  target : Text
  output : Text
  seeds : List Text
  /-- The directory for the report, from the root; empty for none. -/
  reportDir : Text
  useCache : Bool
  cacheDir : Text
  jobs : Int
  maxDepth : Int

inductive SettingsError where
  | noTarget
  | noSeeds
  | negative
deriving DecidableEq

def SettingsError.message : SettingsError → Text
  | .noTarget => "missing target name (set [target].name or --target)"
  | .noSeeds => "no seed types (set [seeds].types or --seed)"
  | .negative => "--jobs and --max-depth must not be negative"

namespace Settings

/-- The output before a default is put in. The configured one belongs to the configured target, so
another target leaves it. -/
def chosenOutput (c : Config) (o : Overrides) : Text :=
  o.output.getD (if o.target.isSome then [] else c.output)

def merge (cwd : Text) (c : Config) (o : Overrides) : Except SettingsError Settings := do
  let target := (o.target.map Text.trim).getD c.target
  let output := chosenOutput c o
  let seeds := if o.seeds.isEmpty then c.seeds else o.seeds
  let reportDir := if o.noReport then [] else o.reportDir.getD c.reportDir
  let jobs := o.jobs.getD c.jobs
  let maxDepth := o.maxDepth.getD c.maxDepth
  if target = [] then throw .noTarget
  if seeds.isEmpty then throw .noSeeds
  if jobs < 0 || maxDepth < 0 then throw .negative
  return {
    target, seeds, jobs, maxDepth
    output := if output = [] then target ++ Selection.extension else output
    reportDir := if reportDir = [] then [] else Path.absolute cwd reportDir
    useCache := c.useCache && !o.noCache
    cacheDir := o.cacheDir.getD c.cacheDir }

end Settings

end Monomorph
