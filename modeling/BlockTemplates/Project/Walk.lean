/-
The files below a directory that a walk comes upon.

A walk skips what ignore files exclude, and then names that start with a point. `.ignore` files count everywhere,
`.gitignore` files and `info/exclude` only in a repository, a directory with an entry `.git` or `.jj`. The files of a
directory count for all that is below it, also when the walk starts further down. Of two ignore files of one kind that
say something the deeper one counts, and above a repository's directory the second and third kind no longer do. Of the
kinds `.ignore` comes first.

A malformed line is no rule. But a walk does not start in a directory if there is such a line in an ignore file above
it, of whatever kind.
-/
import BlockTemplates.Ignore.Rule
import BlockTemplates.Project.Root

namespace BlockTemplates

/-- a file that a walk came upon; its path starts at the directory the walk started from -/
structure FoundFile where
  path : Path
  content : ByteArray

namespace Walk

/-- the ignore rules of one directory -/
structure Level where
  /-- how many names of a path they do not see -/
  skipped : Nat
  /-- what they see in place of these names -/
  front : List Char
  ignore : List Ignore.Rule
  gitignore : List Ignore.Rule
  exclude : List Ignore.Rule
  repository : Bool
  /-- whether no line of the ignore files is malformed -/
  sound : Bool

/-- a path as the rules of a level see it -/
def Level.see (level : Level) (path : Path) : List UInt8 :=
  level.front.flatMap String.utf8EncodeChar ++ Path.bytes (path.drop level.skipped)

/-- the text of a line; none if it is not UTF-8 -/
def decode? (line : List UInt8) : Option (List Char) :=
  (String.fromUTF8? ⟨line.toArray⟩).map String.toList

def dropReturn (line : List Char) : List Char :=
  match line.reverse with
  | '\r' :: rest => rest.reverse
  | _ => line

/-- the lines of a file up to the first that is not UTF-8; only the last one has no line feed behind it -/
def decodedLines : List (List UInt8) → List (List Char)
  | [] => []
  | [last] => (decode? last).toList
  | line :: rest =>
    match decode? line with
    | some text => dropReturn text :: decodedLines rest
    | none => []

/-- lines without the byte order marks at the start of the first -/
def dropMarks : List (List Char) → List (List Char)
  | [] => []
  | line :: rest => line.dropWhile (· == '\uFEFF') :: rest

/-- the lines of the file at a path of a directory -/
def linesAt (directory : Tree) (path : Path) : List (List Char) :=
  match (directory.find? path).bind Tree.content? with
  | some content => dropMarks (decodedLines (content.toList.splitOn 10))
  | none => []

def ignoreFiles : List Path :=
  [[".ignore"], [".gitignore"], [".git", "info", "exclude"]]

/-- the entries that make a directory a repository -/
def repositoryMarks : List String :=
  [".git", ".jj"]

/-- whether an entry `.git` that is a file starts with a line of text -/
def isReadableMark : Option Tree → Bool
  | some (.file content) => (decode? (content.toList.takeWhile (· != 10))).isSome
  | _ => true

/-- the ignore rules of a directory that `depth` names lead to -/
def levelOf (root : Root) (directory : Tree) (depth : Nat) : Level where
  skipped := (root.view depth).1
  front := (root.view depth).2
  ignore := Ignore.rulesOf (linesAt directory [".ignore"])
  gitignore := Ignore.rulesOf (linesAt directory [".gitignore"])
  exclude := Ignore.rulesOf (linesAt directory [".git", "info", "exclude"])
  repository := repositoryMarks.any fun name => (directory.child? name).isSome
  sound :=
    (ignoreFiles.all fun path => Ignore.isSound (linesAt directory path)) && isReadableMark (directory.child? ".git")

/-- the levels up to the innermost repository's directory -/
def insideRepository : List Level → List Level
  | [] => []
  | level :: outer => if level.repository then [level] else level :: insideRepository outer

/-- the first verdict of rules of the levels, from the innermost on -/
def firstVerdict (rules : Level → List Ignore.Rule) (path : Path) (directory : Bool) : List Level → Ignore.Verdict
  | [] => .silent
  | level :: outer =>
    (Ignore.verdict (rules level) (level.see path) directory).or (firstVerdict rules path directory outer)

/-- what the ignore files of the levels say about a path from the top on -/
def verdict (levels : List Level) (path : Path) (directory : Bool) : Ignore.Verdict :=
  let inner := if levels.any Level.repository then insideRepository levels else []
  (firstVerdict Level.ignore path directory levels).or
    ((firstVerdict Level.gitignore path directory inner).or (firstVerdict Level.exclude path directory inner))

/-- whether a walk skips an entry -/
def skips (levels : List Level) (path : Path) (name : String) (entry : Tree) : Bool :=
  match verdict levels path (!entry.isFile) with
  | .ignored => true
  | .kept => false
  | .silent => name.startsWith "."

mutual

/-- the files of a tree that `path` leads to from the root -/
def filesOf (root : Root) (levels : List Level) (path : Path) : Tree → List FoundFile
  | .file content => [⟨path, content⟩]
  | .directory entries =>
    filesIn root (levelOf root (.directory entries) (root.path.length + path.length) :: levels) path entries

/-- the files of the entries of a directory -/
def filesIn (root : Root) (levels : List Level) (path : Path) : List (String × Tree) → List FoundFile
  | [] => []
  | (name, entry) :: rest =>
    (if skips levels (root.path ++ path ++ [name]) name entry then []
      else filesOf root levels (path ++ [name]) entry) ++ filesIn root levels path rest

end

/-- the levels of the directories above the end of a path, the innermost first -/
def levelsAbove (root : Root) (top : Tree) : Nat → Path → List Level → List Level
  | _, [], levels => levels
  | depth, name :: path, levels =>
    let levels := levelOf root top depth :: levels
    match top.child? name with
    | some next => levelsAbove root next (depth + 1) path levels
    | none => levels

/-- the files a walk from the root comes upon; none if there is nothing or the walk does not start -/
def files? (top : Tree) (root : Root) : Option (List FoundFile) := do
  let start ← top.find? root.path
  let above := levelsAbove root top 0 root.path []
  if start.isFile || above.all Level.sound then some (filesOf root above [] start) else none

end Walk

end BlockTemplates
