/-
Loading the templates of a project.

The source files are the files whose path matches a pattern, in the order of their paths, whatever the order in which
they were found. Each file is parsed into a library of its own, and the libraries are merged in order; the first error
ends the loading and names its file, unless the file is not text.
-/
import BlockTemplates.Config
import BlockTemplates.Engine.Basic
import BlockTemplates.Glob.Match
import BlockTemplates.Project.Walk

namespace BlockTemplates

namespace Sources

/-- reads patterns; the first malformed one is the error -/
def readPatterns : List String → Except Error (List Glob)
  | [] => .ok []
  | pattern :: rest =>
    match Glob.ofString pattern with
    | .error fault => .error (.config (.badPattern pattern fault))
    | .ok glob => (readPatterns rest).map (glob :: ·)

/-- the files that match a pattern, in the order of their paths -/
def select (globs : List Glob) (files : List FoundFile) : List FoundFile :=
  (files.filter fun file => globs.any fun glob => glob.isMatch file.path.bytes).mergeSort
    fun a b => a.path.le b.path

def textOf (file : FoundFile) : Except Error String :=
  match String.fromUTF8? file.content with
  | some text => .ok text
  | none => .error (.file .notText)

/-- adds the templates of one text to a library, by way of a library of its own -/
def addText (policy : Policy) (lib : Library) (text : String) : Except Error Library := do
  let (own, parsed) := Library.empty.parse text policy
  parsed
  let (merged, done) := lib.merge own policy
  done
  pure merged

def addFiles (policy : Policy) : List FoundFile → Library → Except Error Library
  | [], lib => .ok lib
  | file :: rest, lib => do
    let text ← textOf file
    let lib ← (addText policy lib text).mapError fun e => .sourceFile file.path.text e
    addFiles policy rest lib

end Sources

namespace Config

/-- where a configuration is looked for, from the first place on -/
def places : List Path :=
  [["stencil.toml"], [".stencil.toml"], [".config", "stencil.toml"]]

/-- the first place with a file, in the project at `root` -/
def place? (top : Tree) (root : Option Root) : Option Path := do
  let root ← root
  places.find? fun place => ((top.find? (root.path ++ place)).map Tree.isFile).getD false

/-- the bytes of the configuration file of a project, if there is one -/
def content? (top : Tree) (root : Option Root) : Option ByteArray := do
  let place ← place? top root
  (← top.find? ((← root).path ++ place)).content?

/-- the configuration of a project, or the default one -/
def load (top : Tree) (root : Option Root) : Except Error Config :=
  match content? top root with
  | none => .ok default
  | some content =>
    match String.fromUTF8? content with
    | none => .error (.file .notText)
    | some text => ofToml text

def sourceFiles (config : Config) (top : Tree) (root : Option Root) : Except Error (List FoundFile) := do
  let globs ← Sources.readPatterns config.sources
  match root.bind (Walk.files? top) with
  | some files => pure (Sources.select globs files)
  | none => .error (.file .notListed)

/-- the engine with the templates of the project at `root` -/
def buildEngine (config : Config) (top : Tree) (root : Option Root) : Except Error Engine := do
  let files ← config.sourceFiles top root
  (Sources.addFiles config.duplicates files Library.empty).map Engine.ofLibrary

end Config

end BlockTemplates
