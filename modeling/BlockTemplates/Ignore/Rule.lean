/-
Rules of ignore files.

A line is a glob pattern, or an exception behind an exclamation mark. A slash at its end restricts it to directories;
one at its start or inside ties it to the directory of the file, and any other pattern matches at every depth. Blank
lines, lines with a hash sign in front and malformed patterns are no rules. The last rule that matches decides.

A bracket that opens no class is a plain character here. A path is matched as the file sees it, usually from the
directory of the file on.
-/
import BlockTemplates.Glob.Match
import BlockTemplates.Text.Blank

namespace BlockTemplates.Ignore

/-- what one line says -/
structure Rule where
  glob : Glob
  /-- whether the rule is an exception -/
  keeps : Bool
  onlyDirectories : Bool

/-- what rules say about a path -/
inductive Verdict where
  | silent
  | ignored
  | kept
  deriving DecidableEq, Repr

/-- the first verdict that is not silent -/
def Verdict.or : Verdict → Verdict → Verdict
  | silent, other => other
  | verdict, _ => verdict

/-- a line without the blanks at its end, which an escape of the last one keeps -/
def stripLine (line : List Char) : List Char :=
  if [' ', '\\'].isPrefixOf line.reverse then line else Text.trimEnd line

/-- whether a pattern matches at every depth on its own -/
def matchesAnywhere (pattern : List Char) : Bool :=
  "**/".toList.isPrefixOf pattern || pattern == "**".toList

/-- the glob of a pattern that is tied to the directory, or matches at every depth -/
def globText (tied : Bool) (pattern : List Char) : List Char :=
  let pattern :=
    if !tied && !pattern.contains '/' && !matchesAnywhere pattern then "**/".toList ++ pattern else pattern
  if "**/".toList.isPrefixOf pattern.reverse then pattern ++ "/*".toList else pattern

/-- the exclamation mark and the slash at the start of a line, and what stands behind them -/
def signs : List Char → Bool × Bool × List Char
  | '\\' :: '!' :: rest => (false, false, '!' :: rest)
  | '\\' :: '#' :: rest => (false, false, '#' :: rest)
  | '!' :: '/' :: rest => (true, true, rest)
  | '!' :: rest => (true, false, rest)
  | '/' :: rest => (false, true, rest)
  | rest => (false, false, rest)

/-- a slash at the end of a pattern, with the backslash that escapes it, and the pattern without them -/
def directorySign (pattern : List Char) : Bool × List Char :=
  match pattern.reverse with
  | '/' :: '\\' :: rest => (true, rest.reverse)
  | '/' :: rest => (true, rest.reverse)
  | _ => (false, pattern)

/-- the rule of a line, if the line holds one -/
def Rule.ofLine (line : List Char) : Except Glob.Fault (Option Rule) :=
  let line := if line.head? = some '#' then [] else stripLine line
  if line.isEmpty then .ok none
  else
    let (keeps, tied, rest) := signs line
    let (onlyDirectories, pattern) := directorySign rest
    (Glob.ofStringWith .lenient (String.ofList (globText tied pattern))).map fun glob =>
      some ⟨glob, keeps, onlyDirectories⟩

def rulesOf (lines : List (List Char)) : List Rule :=
  lines.filterMap fun line => (Rule.ofLine line).toOption.join

/-- whether no line of a file is malformed -/
def isSound (lines : List (List Char)) : Bool :=
  lines.all fun line => (Rule.ofLine line).isOk

/-- what rules say about a path as they see it -/
def verdict (rules : List Rule) (path : List UInt8) (directory : Bool) : Verdict :=
  match rules.reverse.find? fun rule => (directory || !rule.onlyDirectories) && rule.glob.isMatch path with
  | some rule => if rule.keeps then .kept else .ignored
  | none => .silent

end BlockTemplates.Ignore
