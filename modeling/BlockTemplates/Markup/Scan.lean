/-
Template blocks in a text, found line by line.

A block begins with a start marker and ends at the first end marker of the same name, on the same line or a later one;
what stands behind either marker's match on the closing line is passed over. The text behind the start marker is the
body's first line, unless it is blank and the block goes on. Under `Policy.ignore` a block whose name is taken is passed
over up to its end marker, under `Policy.error` its start marker is an error.
-/
import BlockTemplates.Library
import BlockTemplates.Text.Blank

namespace BlockTemplates

namespace Markup

/-- what the scanner is in the middle of -/
inductive Scan where
  /-- no block is open -/
  | searching
  /-- a block is open since `line`, and these are the lines of its body so far, the latest first -/
  | collecting (name : List Char) (line : Nat) (body : List (List Char))
  /-- a block is passed over since `line` -/
  | skipping (name : List Char) (line : Nat)
  deriving DecidableEq, Repr

/-- a duplicate that is noticed in the text has a line -/
def withLine (line : Nat) : Error → Error
  | .duplicateTemplate name _ => .duplicateTemplate name (some line)
  | e => e

/-- adds the template of a block that started on `line` -/
def close (policy : Policy) (lib : Library) (name : List Char) (line : Nat) (body : List Char) :
    Except Error Library := do
  let t ← Template.make (String.ofList name) (String.ofList body)
  (lib.add t policy).mapError (withLine line)

/-- a line while no block is open -/
def openLine (policy : Policy) (lib : Library) (number : Nat) (line : List Char) : Except Error (Library × Scan) :=
  match Marker.firstStart? line with
  | none => .ok (lib, .searching)
  | some (name, rest) =>
    let ending := Text.cut? (Marker.stop name) rest
    if lib.contains (String.ofList name) && policy == .error then
      .error (.duplicateTemplate (String.ofList name) (some number))
    else if lib.contains (String.ofList name) && policy == .ignore then
      .ok (lib, if ending.isSome then .searching else .skipping name number)
    else
      match ending with
      | some (body, _) => (close policy lib name number body).map fun lib => (lib, .searching)
      | none => .ok (lib, .collecting name number (if (Text.trim rest).isEmpty then [] else [rest]))

def step (policy : Policy) (lib : Library) (scan : Scan) (number : Nat) (line : List Char) :
    Except Error (Library × Scan) :=
  match scan with
  | .searching => openLine policy lib number line
  | .collecting name start body =>
    match Text.cut? (Marker.stop name) line with
    | some (before, _) =>
      (close policy lib name start (['\n'].intercalate (before :: body).reverse)).map fun lib => (lib, .searching)
    | none => .ok (lib, .collecting name start (line :: body))
  | .skipping name start =>
    .ok (lib, if Text.occurs (Marker.stop name) line then .searching else .skipping name start)

/-- how a scan ends with the text -/
def finish : Scan → Except Error Unit
  | .searching => .ok ()
  | .collecting name line _ => .error (.unterminatedTemplate (String.ofList name) line)
  | .skipping name line => .error (.unterminatedTemplate (String.ofList name) line)

/-- the lines from number `number` on -/
def scanLines (policy : Policy) : Nat → List (List Char) → Scan → Library → Library × Except Error Unit
  | _, [], scan, lib => (lib, finish scan)
  | number, line :: rest, scan, lib =>
    match step policy lib scan number line with
    | .ok (lib, scan) => scanLines policy (number + 1) rest scan lib
    | .error e => (lib, .error e)

end Markup

/-- adds every template block of a text; the blocks before an error stay added -/
def Library.parse (lib : Library) (input : String) (policy : Policy) : Library × Except Error Unit :=
  Markup.scanLines policy 1 (input.toList.splitOn '\n') .searching lib

end BlockTemplates
