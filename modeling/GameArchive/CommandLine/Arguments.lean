import GameArchive.CommandLine.Help

/-!
# Reading arguments

Arguments are read from first to last.  Options may stand anywhere, short ones may be written
together, and a value may stand in the same argument or in the next one, where it must not look
like an option.  After a double hyphen all arguments are positional.  The first argument that is
wrong, or that asks for help or for the version, ends the reading.
-/

namespace GameArchive
namespace CommandLine

inductive Command where
  | sniff (file : String)
  | list (archive : String)
  | extract (archive output : String) (only : List String)
  | rebuild (archive output : String)
  | packBtar (output directory : String)
  deriving Repr, DecidableEq

def Command.paths : Command → List String
  | sniff file => [file]
  | list archive => [archive]
  | extract archive output _ => [archive, output]
  | rebuild archive output => [archive, output]
  | packBtar output directory => [output, directory]

structure Invocation where
  command : Command
  config? : Option String
  isVerbose : Bool
  deriving Repr, DecidableEq

inductive Stop where
  | usage
  | help (topic : HelpTopic)
  | version
  deriving Repr, DecidableEq

structure Found where
  positionals : List String
  /-- The options, each with its value, or an empty one for a flag. -/
  options : List (OptionRule × String)
  deriving Repr, DecidableEq

namespace Found

def none : Found := ⟨[], []⟩

def values (found : Found) (long : String) : List String :=
  (found.options.filter fun (rule, _) => rule.long = long).map fun (_, value) => value

def contains (found : Found) (long : String) : Bool :=
  !(found.values long).isEmpty

/-- Takes an option, which may be given only once unless it may repeat. -/
def take (found : Found) (rule : OptionRule) (value : String) : Except Stop Found :=
  let (mayRepeat, mayBeEmpty) := match rule.kind with
    | .value _ _ mayRepeat mayBeEmpty => (mayRepeat, mayBeEmpty)
    | _ => (false, true)
  if value = "" ∧ !mayBeEmpty then .error .usage
  else if found.contains rule.long ∧ !mayRepeat then .error .usage
  else .ok { found with options := found.options ++ [(rule, value)] }

/-- Takes positional arguments, of which there may be `limit`; none of them is empty. -/
def takePositionals (found : Found) (limit : Nat) (values : List String) : Except Stop Found :=
  let positionals := found.positionals ++ values
  if positionals.length ≤ limit ∧ values.all (· ≠ "") then .ok { found with positionals }
  else .error .usage

end Found

structure Grammar where
  topic : HelpTopic
  options : List OptionRule
  /-- The number of positional arguments, or none where the first one ends the reading. -/
  limit? : Option Nat
  deriving Repr, DecidableEq

/-- Reads short options that are written together.  The last one may need the next argument as
its value. -/
def readShort (grammar : Grammar) (found : Found) :
    List Char → Except Stop (Found × Option OptionRule)
  | [] => .ok (found, none)
  | short :: rest =>
      match grammar.options.find? fun rule => rule.short? = some short with
      | none => .error .usage
      | some rule =>
          match rule.kind with
          | .help => .error (.help grammar.topic)
          | .version => .error .version
          | .flag => do
              let found ← found.take rule ""
              readShort grammar found rest
          | .value .. =>
              match rest with
              | [] => .ok (found, some rule)
              | '=' :: value => do
                  let found ← found.take rule (String.ofList value)
                  pure (found, none)
              | value => do
                  let found ← found.take rule (String.ofList value)
                  pure (found, none)

/-- Reads a long option.  It may need the next argument as its value. -/
def readLong (grammar : Grammar) (found : Found) (text : List Char) :
    Except Stop (Found × Option OptionRule) :=
  let long := String.ofList (text.takeWhile (· ≠ '='))
  let value? := match text.dropWhile (· ≠ '=') with
    | [] => none
    | _ :: value => some (String.ofList value)
  match grammar.options.find? fun rule => rule.long = long with
  | none => .error .usage
  | some rule =>
      match rule.kind, value? with
      | .help, none => .error (.help grammar.topic)
      | .version, none => .error .version
      | .flag, none => do
          let found ← found.take rule ""
          pure (found, none)
      | .value .., none => .ok (found, some rule)
      | .value .., some value => do
          let found ← found.take rule value
          pure (found, none)
      | _, some _ => .error .usage

def isOption (argument : String) : Bool :=
  match argument.toList with
  | '-' :: _ :: _ => true
  | _ => false

def readOption (grammar : Grammar) (found : Found) (argument : String) :
    Except Stop (Found × Option OptionRule) :=
  match argument.toList with
  | '-' :: '-' :: text => readLong grammar found text
  | '-' :: text => readShort grammar found text
  | _ => .error .usage

/-- Reads arguments, and gives those that are left when the first positional one ends the
reading. -/
def readArguments (grammar : Grammar) (found : Found) :
    List String → Except Stop (Found × List String)
  | [] => .ok (found, [])
  | argument :: rest =>
      if argument = "--" then
        match grammar.limit? with
        | none => .error .usage
        | some limit => do
            let found ← found.takePositionals limit rest
            pure (found, [])
      else if isOption argument then do
        match ← readOption grammar found argument with
        | (found, none) => readArguments grammar found rest
        | (found, some rule) =>
            match rest with
            | [] => .error .usage
            | value :: rest =>
                if isOption value then
                  .error .usage
                else do
                  let found ← found.take rule value
                  readArguments grammar found rest
      else
        match grammar.limit? with
        | none => .ok (found, argument :: rest)
        | some limit => do
            let found ← found.takePositionals limit [argument]
            readArguments grammar found rest

def programGrammar : Grammar := ⟨.program, programOptions, none⟩

def CommandName.grammar (name : CommandName) : Grammar :=
  ⟨.command name, name.options, some name.positionals.length⟩

/-- The command that was found, if nothing is missing. -/
def CommandName.interpret? (name : CommandName) (found : Found) : Option Command :=
  match name, found.positionals, found.values "output" with
  | .sniff, [file], _ => some (.sniff file)
  | .list, [archive], _ => some (.list archive)
  | .extract, [archive], [output] => some (.extract archive output (found.values "only"))
  | .rebuild, [archive], [output] => some (.rebuild archive output)
  | .packBtar, [output, directory], _ => some (.packBtar output directory)
  | _, _, _ => none

def readHelp : List String → Stop
  | [] => .help .program
  | [word] =>
      if word = helpWord then .help .help
      else
        match CommandName.ofWord? word with
        | some name => .help (.command name)
        | none => .usage
  | _ => .usage

/-- Reads all arguments of the program.  The options that hold everywhere may stand before the
command and after it; a path of settings after it counts. -/
def parse (arguments : List String) : Except Stop Invocation := do
  let (outer, rest) ← readArguments programGrammar .none arguments
  match rest with
  | [] => .error .usage
  | word :: rest =>
      if word = helpWord then
        .error (readHelp rest)
      else
        match CommandName.ofWord? word with
        | none => .error .usage
        | some name => do
            let (inner, _) ← readArguments name.grammar .none rest
            match name.interpret? inner with
            | none => .error .usage
            | some command =>
                let configs := outer.values configOption.long ++ inner.values configOption.long
                pure {
                  command
                  config? := configs.getLast?
                  isVerbose :=
                    outer.contains verboseOption.long || inner.contains verboseOption.long }

end CommandLine
end GameArchive
