/-
What the program says about its use and about failures.

A report goes to the error stream. Its first line is the code of an error or one of two fixed sentences, except for
arguments that cannot be read.
-/
import BlockTemplates.CommandLine.Arguments
import BlockTemplates.Error

namespace BlockTemplates.CommandLine

/-- what is written to the error stream -/
inductive Report where
  /-- the arguments cannot be read -/
  | usage (refusal : Refusal)
  | noCommand
  | noTemplates
  | failure (error : Error)

/-- the answer to a request for help -/
def usageText : String :=
  String.intercalate "\n" [
    "List, inspect and render named template blocks.",
    "",
    "Usage: stencil [OPTIONS] [COMMAND]",
    "",
    "Commands:",
    "  list                 List the names of every loaded template",
    "  show NAME            Print the raw body of a template without rendering it",
    "  render NAME          Render a template with slot values",
    "",
    "Options:",
    "  -p, --path PATH      Path to the project root directory",
    "  -v, --verbose        Enable verbose output",
    "      --no-color       Disable colored output",
    "      --duplicates P   How repeated names are handled: error, overwrite or ignore",
    "      --slot KEY=VALUE A single slot of `render`; may be repeated",
    "      --slots JSON     Slots of `render` as a JSON object",
    "  -h, --help           Print help",
    "  -V, --version        Print version",
    ""]

def Refusal.message : Refusal → String
  | missingRequiredArgument => "a required argument is missing"
  | unknownArgument => "an argument is not known"
  | invalidSubcommand => "a command is not known"
  | invalidValue => "a value is missing or cannot be taken"
  | argumentConflict => "a setting is made twice"
  | tooManyValues => "a setting without a value is given one"
  | displayHelp => "help is asked for"
  | displayVersion => "the version is asked for"

/-- the lines about an error: its code, its message, the message of what is behind it, and its help -/
def errorLines (error : Error) : List String :=
  let behind :=
    match error with
    | .sourceFile _ source => source.message.toList
    | _ => []
  error.code :: (error.message.toList ++ behind ++ error.help.toList.map ("help: " ++ ·))

namespace Report

def lines : Report → List String
  | usage refusal => ["error: " ++ refusal.message, "For more information, try `--help`."]
  | noCommand => ["No subcommand specified. Run `stencil --help` for usage."]
  | noTemplates => ["No templates found."]
  | failure error => errorLines error

/-- the first line of a report, if it is not about the use of arguments -/
def headline : Report → Option String
  | usage _ => none
  | report => report.lines.head?

end Report

end BlockTemplates.CommandLine
