/-
The arguments of the command line.

`list`, `show NAME` and `render NAME` are the commands. The settings `--path`, `--verbose`, `--no-color` and
`--duplicates` may stand before the command and behind it, where they count more; `--slot` and `--slots` belong to
`render`. On each side a setting is made once, but `--slot` as often as wanted.

A value is attached to its setting or is the next argument, if that does not look like a setting. A value that is the
next argument is checked when another setting or an operand is read, or at the end; the arguments behind a command are
read before the last value in front of it is checked. `Draft.settle` is this check. It decides which of several mistakes
is reported.
-/
import BlockTemplates.Library

namespace BlockTemplates.CommandLine

/-- why no command is run -/
inductive Refusal where
  | missingRequiredArgument
  | unknownArgument
  | invalidSubcommand
  | invalidValue
  | argumentConflict
  | tooManyValues
  | displayHelp
  | displayVersion
  deriving DecidableEq, Repr

/-- what an argument with hyphens is about -/
inductive Setting where
  | path
  | verbose
  | noColor
  | duplicates
  | slot
  | slots
  | help
  | version
  deriving DecidableEq, Repr

/-- where arguments stand: before the command, or behind it -/
inductive Side where
  | top
  | list
  | show
  | render
  deriving DecidableEq, Repr

namespace Setting

def takesValue : Setting → Bool
  | path => true
  | duplicates => true
  | slot => true
  | slots => true
  | _ => false

def ofLong? (side : Side) (name : String) : Option Setting :=
  match name with
  | "path" => some path
  | "verbose" => some verbose
  | "no-color" => some noColor
  | "duplicates" => some duplicates
  | "help" => some help
  | "version" => if side = .top then some version else none
  | "slot" => if side = .render then some slot else none
  | "slots" => if side = .render then some slots else none
  | _ => none

def ofLetter? (side : Side) (c : Char) : Option Setting :=
  if c = 'p' then some path
  else if c = 'v' then some verbose
  else if c = 'h' then some help
  else if c = 'V' ∧ side = .top then some version
  else none

end Setting

/-- what the arguments of one side say -/
structure Given where
  path : Option String
  verbose : Bool
  noColor : Bool
  duplicates : Option Policy
  /-- the operand -/
  name : Option String
  slot : List String
  slots : Option String

namespace Given

def empty : Given :=
  ⟨none, false, false, none, none, [], none⟩

/-- makes a setting with a value -/
def set (g : Given) (setting : Setting) (value : String) : Except Refusal Given :=
  match setting with
  | .path =>
    if g.path.isSome then .error .argumentConflict
    else if value = "" then .error .invalidValue
    else .ok { g with path := some value }
  | .duplicates =>
    if g.duplicates.isSome then .error .argumentConflict
    else
      match Policy.ofName? value with
      | some policy => .ok { g with duplicates := some policy }
      | none => .error .invalidValue
  | .slot => .ok { g with slot := g.slot ++ [value] }
  | .slots => if g.slots.isSome then .error .argumentConflict else .ok { g with slots := some value }
  | _ => .error .tooManyValues

/-- makes a setting without a value -/
def turnOn (g : Given) (setting : Setting) : Except Refusal Given :=
  match setting with
  | .verbose => if g.verbose then .error .argumentConflict else .ok { g with verbose := true }
  | .noColor => if g.noColor then .error .argumentConflict else .ok { g with noColor := true }
  | .help => .error .displayHelp
  | .version => .error .displayVersion
  | _ => .error .invalidValue

end Given

/-- what has been read of one side -/
structure Draft where
  given : Given
  /-- a setting whose value is not checked yet, or has not come yet -/
  waiting : Option (Setting × Option String)

namespace Draft

def empty : Draft :=
  ⟨Given.empty, none⟩

/-- checks the value that is waiting -/
def settle (p : Draft) : Except Refusal Given :=
  match p.waiting with
  | none => .ok p.given
  | some (setting, some value) => p.given.set setting value
  | some (_, none) => .error .invalidValue

/-- the setting that the next argument may be the value of -/
def asking? (p : Draft) : Option Setting :=
  match p.waiting with
  | some (setting, none) => some setting
  | _ => none

/-- reads a setting with the value that is attached to it, if any -/
def addSetting (p : Draft) (setting : Setting) (attached : Option String) : Except Refusal Draft := do
  if setting.takesValue then
    let given ← p.settle
    match attached with
    | some value => return ⟨← given.set setting value, none⟩
    | none => return ⟨given, some (setting, none)⟩
  else if attached.isSome then throw .tooManyValues
  else return ⟨← (← p.settle).turnOn setting, none⟩

/-- reads letters behind one hyphen; what follows a letter with a value is the value -/
def addLetters (side : Side) : List Char → Draft → Except Refusal Draft
  | [], p => .ok p
  | c :: cs, p =>
    match Setting.ofLetter? side c with
    | none => .error .unknownArgument
    | some setting =>
      if setting.takesValue then
        p.addSetting setting <|
          match cs with
          | [] => none
          | '=' :: value => some (String.ofList value)
          | value => some (String.ofList value)
      else do
        addLetters side cs (← p.addSetting setting none)

/-- reads a long name, perhaps with a value behind an equals sign -/
def addLong (side : Side) (cs : List Char) (p : Draft) : Except Refusal Draft :=
  let name := cs.takeWhile (· != '=')
  match Setting.ofLong? side (String.ofList name) with
  | none => .error .unknownArgument
  | some setting =>
    p.addSetting setting <|
      match cs.dropWhile (· != '=') with
      | _ :: value => some (String.ofList value)
      | [] => none

def commandSide? (word : String) : Option Side :=
  match word with
  | "list" => some .list
  | "show" => some .show
  | "render" => some .render
  | _ => none

/-- reads an operand, `behindDashes` or not -/
def addOperand (side : Side) (behindDashes : Bool) (word : String) (p : Draft) : Except Refusal Draft :=
  match side with
  | .top =>
    if behindDashes && ((commandSide? word).isSome || word == "help") then .error .unknownArgument
    else .error .invalidSubcommand
  | .list => .error .unknownArgument
  | _ =>
    if p.given.name.isSome then .error .unknownArgument
    else do
      let given ← p.settle
      return ⟨{ given with name := some word }, none⟩

/-- the command `help`: without words, or with the name of one command -/
def helpRefusal (words : List String) : Refusal :=
  match words with
  | [] => .displayHelp
  | [word] => if (commandSide? word).isSome || word == "help" then .displayHelp else .invalidSubcommand
  | _ => .invalidSubcommand

/-- reads the arguments of a side, up to a command -/
def read (side : Side) : Bool → Draft → List String → Except Refusal (Draft × Option (Side × List String))
  | _, p, [] => .ok (p, none)
  | true, p, word :: rest => do
    let p ← p.addOperand side true word
    read side true p rest
  | false, p, word :: rest =>
    if side = .top ∧ p.asking?.isNone ∧ (commandSide? word).isSome then
      .ok (p, (commandSide? word).map fun command => (command, rest))
    else if side = .top ∧ p.asking?.isNone ∧ word = "help" then .error (helpRefusal rest)
    else
      match word.toList, p.asking? with
      | ['-', '-'], _ => read side true p rest
      | '-' :: '-' :: cs, _ => do
        let p ← p.addLong side cs
        read side false p rest
      | '-' :: c :: cs, _ => do
        let p ← p.addLetters side (c :: cs)
        read side false p rest
      | _, some setting => read side false { p with waiting := some (setting, some word) } rest
      | _, none => do
        let p ← p.addOperand side false word
        read side false p rest

end Draft

/-- a command with its own arguments -/
inductive Command where
  | list
  | show (name : String)
  | render (name : String) (pairs : List String) (json : Option String)
  deriving DecidableEq, Repr

structure Arguments where
  command : Option Command
  path : Option String
  verbose : Bool
  noColor : Bool
  duplicates : Option Policy

/-- the command of a side; `show` and `render` need an operand -/
def commandOf (side : Side) (g : Given) : Except Refusal (Option Command) :=
  match side, g.name with
  | .top, _ => .ok none
  | .list, _ => .ok (some .list)
  | .show, some name => .ok (some (.show name))
  | .render, some name => .ok (some (.render name g.slot g.slots))
  | _, none => .error .missingRequiredArgument

/-- the settings of both sides; those behind the command count more -/
def combine (command : Option Command) (before behind : Given) : Arguments where
  command := command
  path := behind.path.or before.path
  verbose := before.verbose || behind.verbose
  noColor := before.noColor || behind.noColor
  duplicates := behind.duplicates.or before.duplicates

def Arguments.ofList (args : List String) : Except Refusal Arguments := do
  match ← Draft.read .top false Draft.empty args with
  | (top, none) => return combine none (← top.settle) Given.empty
  | (top, some (side, rest)) =>
    let (own, _) ← Draft.read side false Draft.empty rest
    let behind ← own.settle
    let command ← commandOf side behind
    return combine command (← top.settle) behind

end BlockTemplates.CommandLine
