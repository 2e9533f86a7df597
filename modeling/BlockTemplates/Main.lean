/-
The program `stencil`.

It reads the project's directory into a tree, with the ignore files of the directories above it, and leaves the rest to
`CommandLine.runIn`. Links are left out, as a walk follows none.
-/
import BlockTemplates.CommandLine.Run

namespace BlockTemplates.Tree

/-- everything at a place on disk -/
partial def read (place : String) : IO Tree := do
  let start ← IO.FS.realPath place
  match (← start.metadata).type with
  | .file => return file (← IO.FS.readBinFile start)
  | _ =>
    let mut entries : Entries Tree := []
    for entry in ← start.readDir do
      match (← entry.path.symlinkMetadata).type with
      | .file => entries := entries.insert entry.fileName (← read entry.path.toString)
      | .dir => entries := entries.insert entry.fileName (← read entry.path.toString)
      | _ => pure ()
    return directory entries

/-- adds the file at a path of a directory on disk, if there is one -/
def addFrom (place : String) (t : Tree) (path : Path) : IO Tree := do
  match ← (IO.FS.readBinFile s!"{place}/{path.text}").toBaseIO with
  | .ok content => return put (file content) path t
  | .error _ => return t

/-- what a directory on disk tells about ignored files below it -/
def readLevel (place : String) : IO Tree := do
  let marks ← Walk.repositoryMarks.filterM fun name => return (← (IO.FS.realPath s!"{place}/{name}").toBaseIO).isOk
  let start := marks.foldl (fun t name => t.putDirectory [name]) empty
  ([".git"] :: Walk.ignoreFiles).foldlM (addFrom place) start

/-- the way from a directory on disk down to a place, and everything there -/
def readTowards (place : String) : Path → IO Tree
  | [] => read (if place.isEmpty then "/" else place)
  | name :: path => do
    let next ← readTowards s!"{place}/{name}" path
    return put next [name] (← readLevel place)

end BlockTemplates.Tree

namespace BlockTemplates.CommandLine

/-- the tree of a project's directory on disk, and the path to the directory -/
def readProject (place : String) : IO (Tree × Path) := do
  let root := (← IO.FS.realPath place).toString
  let path := ((root.toList.splitOn '/').filter fun name => !name.isEmpty).map String.ofList
  return (← Tree.readTowards "" path, path)

/-- runs the program on the project that the arguments name -/
def runOnDisk (args : List String) : IO Outcome := do
  match Arguments.ofList args with
  | .error refusal => return refused refusal
  | .ok args =>
    match ← (readProject (args.path.getD ".")).toBaseIO with
    | .ok (top, path) =>
      let root := ⟨path, args.path.bind fun written => Root.frontOf written.toList⟩
      return runIn top (some root) args
    | .error _ => return runIn Tree.empty none args

end BlockTemplates.CommandLine

/-- the program: its output, its reports and its exit status -/
def main (args : List String) : IO UInt32 := do
  let outcome ← BlockTemplates.CommandLine.runOnDisk args
  IO.print outcome.output
  if outcome.noted then IO.eprintln "The configuration is loaded."
  for report in outcome.report.toList do
    for line in report.lines do
      IO.eprintln line
  return outcome.status.toUInt32
