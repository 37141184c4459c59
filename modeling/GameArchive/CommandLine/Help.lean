import GameArchive.CommandLine.Rules
import GameArchive.Text.Lines

/-!
# Help texts

A help text has a summary, a line of usage, and tables of commands, arguments and options, whose
second columns stand two blanks after the longest entry of the first.
-/

namespace GameArchive
namespace CommandLine

inductive HelpTopic where
  | program
  | command (name : CommandName)
  | help
  deriving Repr, DecidableEq

def helpWord : String := "help"

def helpSummary : String := "Print this message or the help of the given subcommand(s)"

def padRight (width : Nat) (text : String) : String :=
  text ++ String.ofList (List.replicate (width - text.length) ' ')

def tableLines (rows : List (String × String)) : List String :=
  let width := (rows.map fun (first, _) => first.length).foldl max 0
  rows.map fun (first, second) => "  " ++ padRight width first ++ "  " ++ second

def OptionRule.usage (rule : OptionRule) : String :=
  match rule.kind with
  | .value name .. => "--" ++ rule.long ++ " <" ++ name ++ ">"
  | _ => "--" ++ rule.long

def OptionRule.row (rule : OptionRule) : String × String :=
  let start := match rule.short? with
    | some short => String.ofList ['-', short, ',', ' ']
    | none => "    "
  (start ++ rule.usage, rule.summary)

def OptionRule.isRequired (rule : OptionRule) : Bool :=
  match rule.kind with
  | .value _ isRequired _ _ => isRequired
  | _ => false

def PositionalRule.usage (rule : PositionalRule) : String :=
  "<" ++ rule.name ++ ">"

/-- The lines of usage and the tables of a command. -/
def CommandName.helpLines (name : CommandName) : List String :=
  let required := (name.options.filter OptionRule.isRequired).map OptionRule.usage
  let words := [programName, name.word, "[OPTIONS]"] ++ required ++
    name.positionals.map PositionalRule.usage
  [name.summary, "", "Usage: " ++ " ".intercalate words, "", "Arguments:"] ++
    tableLines (name.positionals.map fun rule => (rule.usage, rule.summary)) ++
    ["", "Options:"] ++ tableLines (name.options.map OptionRule.row)

def HelpTopic.lines : HelpTopic → List String
  | program =>
      [programSummary, "", "Usage: " ++ programName ++ " [OPTIONS] <COMMAND>", "", "Commands:"] ++
        tableLines (CommandName.all.map (fun name => (name.word, name.summary)) ++
          [(helpWord, helpSummary)]) ++
        ["", "Options:"] ++ tableLines (programOptions.map OptionRule.row)
  | command name => name.helpLines
  | help =>
      [helpSummary, "", "Usage: " ++ programName ++ " " ++ helpWord ++ " [COMMAND]...", "",
        "Arguments:"] ++ tableLines [("[COMMAND]...", "Print help for the subcommand(s)")]

def HelpTopic.text (topic : HelpTopic) : String :=
  Lines.join topic.lines

end CommandLine
end GameArchive
