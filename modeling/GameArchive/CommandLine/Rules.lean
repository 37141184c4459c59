/-!
# Rules of the command line

The program has commands, and every command has positional arguments and options of its own
beside the options that hold everywhere.  The rules are data from which both the reading of
arguments and the help texts are made.
-/

namespace GameArchive
namespace CommandLine

def programName : String := "modarc"

def programVersion : String := "0.1.0"

def programSummary : String := "Read, rebuild and extract Bethesda and mod archives"

inductive OptionKind where
  | flag
  /-- The option has a value, perhaps more than one or an empty one. -/
  | value (name : String) (isRequired mayRepeat mayBeEmpty : Bool)
  | help
  | version
  deriving Repr, DecidableEq

structure OptionRule where
  short? : Option Char
  long : String
  kind : OptionKind
  summary : String
  deriving Repr, DecidableEq

structure PositionalRule where
  name : String
  summary : String
  deriving Repr, DecidableEq

inductive CommandName where
  | sniff
  | list
  | extract
  | rebuild
  | packBtar
  deriving Repr, DecidableEq

namespace CommandName

def all : List CommandName := [sniff, list, extract, rebuild, packBtar]

def word : CommandName → String
  | sniff => "sniff"
  | list => "list"
  | extract => "extract"
  | rebuild => "rebuild"
  | packBtar => "pack-btar"

def summary : CommandName → String
  | sniff => "Print the detected container format"
  | list => "List every entry with its size and hash"
  | extract => "Extract an archive to a directory"
  | rebuild => "Rebuild a BSA/BA2 from its own state and verify the result"
  | packBtar => "Pack a directory tree into a BTAR stream"

/-- The positional arguments of a command, all of which have to be given. -/
def positionals : CommandName → List PositionalRule
  | sniff => [⟨"FILE", ""⟩]
  | list | extract | rebuild => [⟨"ARCHIVE", ""⟩]
  | packBtar => [⟨"OUTPUT", "Output .btar file"⟩, ⟨"DIR", "Directory to pack"⟩]

def ofWord? (word : String) : Option CommandName :=
  all.find? fun name => name.word = word

end CommandName

def configOption : OptionRule where
  short? := none
  long := "config"
  kind := .value "CONFIG" false false false
  summary := "Config file (defaults to ~/.config/modarc/config.json)"

def verboseOption : OptionRule where
  short? := some 'v'
  long := "verbose"
  kind := .flag
  summary := "Enable verbose logging (use RUST_LOG=debug for more detail)"

def helpOption : OptionRule where
  short? := some 'h'
  long := "help"
  kind := .help
  summary := "Print help"

def versionOption : OptionRule where
  short? := some 'V'
  long := "version"
  kind := .version
  summary := "Print version"

def outputOption (summary : String) : OptionRule where
  short? := some 'o'
  long := "output"
  kind := .value "OUTPUT" true false false
  summary := summary

def onlyOption : OptionRule where
  short? := none
  long := "only"
  kind := .value "ONLY" false true true
  summary := "Only extract these archive paths"

def programOptions : List OptionRule :=
  [configOption, verboseOption, helpOption, versionOption]

def CommandName.options : CommandName → List OptionRule
  | sniff | list | packBtar => [configOption, verboseOption, helpOption]
  | extract =>
      [configOption, outputOption "Output directory", onlyOption, verboseOption, helpOption]
  | rebuild => [configOption, outputOption "Output archive path", verboseOption, helpOption]

end CommandLine
end GameArchive
