/-
Running a command on a file tree.

Every command loads the project's configuration and templates first. `list` writes the names, `show` a body, `render` an
output, each with a line feed behind it. The exit status is 0, or 1 without a command, or 2 after a failure.

A run is a function of the tree it reads: `runIn` takes the project's root, `run` looks for it from a directory on.
-/
import BlockTemplates.CommandLine.Report
import BlockTemplates.CommandLine.SlotPair
import BlockTemplates.Project.Sources

namespace BlockTemplates.CommandLine

structure Outcome where
  status : Nat
  output : String
  /-- whether the error stream holds notes on the progress of the run, in front of the report -/
  noted : Bool
  report : Option Report

def failed (error : Error) : Outcome :=
  ⟨2, "", false, some (.failure error)⟩

def finished (output : String) : Outcome :=
  ⟨0, output, false, none⟩

def versionLine : String :=
  "stencil_cli 0.1.0\n"

/-- the first line of the error stream, if it is the first line of a report -/
def Outcome.headline (outcome : Outcome) : Option String :=
  if outcome.noted then none else outcome.report.bind Report.headline

/-- the root of the project, as seen from the directory `here` -/
def rootOf (top : Tree) (here : Path) (path : Option String) : Option Root :=
  match path with
  | none => some (Root.ofPath here)
  | some path => Root.ofText? top here path

/-- the configuration of the project at `root`, with the policy of the arguments -/
def configOf (top : Tree) (root : Option Root) (args : Arguments) : Except Error Config := do
  let config ← Config.load top root
  pure { config with duplicates := args.duplicates.getD config.duplicates }

/-- what a command does in a project with a configuration -/
def execute (top : Tree) (root : Option Root) (config : Config) : Command → Except Error Outcome
  | .list => do
    let engine ← config.buildEngine top root
    match engine.library.names with
    | [] => pure ⟨0, "", false, some .noTemplates⟩
    | names => pure (finished (String.join (names.map (· ++ "\n"))))
  | .show name => do
    let engine ← config.buildEngine top root
    let t ← engine.library.get name
    pure (finished (t.body ++ "\n"))
  | .render name pairs json => do
    let engine ← config.buildEngine top root
    let slots ← config.slots.layered json pairs
    let output ← (engine.render name slots).2
    pure (finished (output ++ "\n"))

def refused : Refusal → Outcome
  | .displayHelp => finished usageText
  | .displayVersion => finished versionLine
  | refusal => ⟨2, "", false, some (.usage refusal)⟩

/-- runs the program on the project at `root`; once there is a configuration, its progress is noted if asked for -/
def runIn (top : Tree) (root : Option Root) (args : Arguments) : Outcome :=
  match args.command with
  | none => ⟨1, "", false, some .noCommand⟩
  | some command =>
    match configOf top root args with
    | .error error => failed error
    | .ok config =>
      match execute top root config command with
      | .ok outcome => { outcome with noted := args.verbose }
      | .error error => { failed error with noted := args.verbose }

/-- runs the program in the directory `here` -/
def run (top : Tree) (here : Path) (args : List String) : Outcome :=
  match Arguments.ofList args with
  | .error refusal => refused refusal
  | .ok args => runIn top (rootOf top here args.path) args

end BlockTemplates.CommandLine
