import GameArchive.Archiver.Search
import GameArchive.Btar.Pack
import GameArchive.CommandLine.Arguments
import GameArchive.CommandLine.Report
import GameArchive.Settings

/-!
# Carrying out commands

A machine is what a run of the program starts from: files, environment and programs.  A run leaves
files, output, error output and an exit code.  The exit code of a command that fails is one, and
that of wrong arguments is two.
-/

namespace GameArchive
namespace CommandLine

/-- What a run starts from. -/
structure Machine where
  tree : FileTree
  workingDirectory : Location
  programDirectory? : Option Location
  environment : Settings.Environment
  temporaryDirectory : String
  processors : Nat
  launch : Archiver.Launch

/-- What a run leaves. -/
structure Outcome where
  tree : FileTree
  exitCode : Nat
  output : String
  errors : String
  deriving Repr, DecidableEq

inductive Failure where
  | notOpened (path : String)
  | isDirectory
  | notListed (path : String) (cause : ExtractError)
  | notExtracted (path : String) (cause : ExtractError)
  | notCreated (path : String)
  | notReopened (path : String)
  | extraction (cause : ExtractError)
  | discrepancy (found : Discrepancy)
  | pack (failure : Btar.PackFailure)
  | settings (fault : Settings.Fault)
  | invalidSettings (fault : Settings.Fault)
  deriving Repr, DecidableEq

def Failure.messages : Failure → List String
  | notOpened path => ["Failed to open " ++ path]
  | isDirectory => ["Is a directory (os error 21)"]
  | notListed path cause => ["Failed to list " ++ path, cause.message]
  | notExtracted path cause => ["Failed to extract " ++ path, cause.message]
  | notCreated path => ["Failed to create " ++ path]
  | notReopened path => ["Failed to reopen " ++ path]
  | extraction cause => [cause.message]
  | discrepancy found => [found.message]
  | pack failure => failure.messages
  | settings fault => [fault.message]
  | invalidSettings fault => ["Invalid configuration", fault.message]

def Failure.report (failure : Failure) : String :=
  match failure.messages with
  | [] => ""
  | message :: causes =>
      let lines := match causes with
        | [] => []
        | causes => ["", "Caused by:"] ++ causes.map fun cause => "    " ++ cause
      Lines.join (("Error: " ++ message) :: lines)

/-- What a command works on. -/
structure Console where
  tree : FileTree
  output : String
  errors : String
  deriving Repr, DecidableEq

abbrev Action := EStateM Failure Console

def printLine (line : String) : Action Unit :=
  modify fun console => { console with output := console.output ++ line ++ "\n" }

def orFail {ε α : Type} (report : ε → Failure) : Except ε α → Action α
  | .ok value => pure value
  | .error failure => throw (report failure)

/-- The variables of the environment that are not empty. -/
def Machine.environmentValue? (machine : Machine) (name : String) : Option String :=
  Settings.environmentValue? machine.environment name

def Machine.defaultConfig? (machine : Machine) : Option String :=
  let directory? := match machine.environmentValue? "XDG_CONFIG_HOME" with
    | some path =>
        if path.toList.head? = some '/' then some path
        else (machine.environmentValue? "HOME").map fun home => Path.join home ".config"
    | none => (machine.environmentValue? "HOME").map fun home => Path.join home ".config"
  directory?.map fun directory => Path.join (Path.join directory "modarc") "config.json"

/-- The settings before they are checked.  Those at the default place may be missing. -/
def Machine.readSettings (machine : Machine) (tree : FileTree) (config? : Option String) :
    Except Settings.Fault Settings := do
  let load := fun (path : String) =>
    Settings.ofFile machine.processors path
      (tree.readPath machine.workingDirectory path).toOption
  let settings ← match config? with
    | some path => load path
    | none =>
        match machine.defaultConfig? with
        | none => pure (Settings.unset machine.processors)
        | some path =>
            if (tree.nodeAt? machine.workingDirectory path).isSome then load path
            else pure (Settings.unset machine.processors)
  pure (settings.override machine.environment)

def loadSettings (machine : Machine) (config? : Option String) : Action Settings := do
  let tree := (← get).tree
  let settings ← orFail .settings (machine.readSettings tree config?)
  orFail .invalidSettings (settings.check tree machine.workingDirectory)
  pure settings

def Machine.places (machine : Machine) : Archiver.Places where
  workingDirectory := machine.workingDirectory
  programDirectory? := machine.programDirectory?
  searchPath :=
    ((Path.splitAt ':' ((machine.environment.lookup "PATH").getD "").toList).map
      String.ofList).filter (· ≠ "")

/-- How the machine runs a program.  Only a file that can be run is. -/
def Machine.launchProgram (machine : Machine) : Archiver.Launch := fun program arguments tree =>
  if Archiver.isProgram tree machine.workingDirectory program then
    machine.launch program arguments tree
  else
    .error .system

def Machine.extractor (machine : Machine) (settings : Settings) : Extractor where
  workingDirectory := machine.workingDirectory
  temporaryDirectory := settings.temporaryDirectory machine.temporaryDirectory
  findArchiver := fun tree =>
    (Archiver.locate machine.places settings.archiver? tree).map
      (Archiver.runProgram machine.launchProgram)

def runExtraction {α : Type} (settings : Settings) (report : ExtractError → Failure)
    (extraction : Extraction α) : Action α := fun console =>
  let session : Session := {
    tree := console.tree
    isCancelled := false
    limiter := .ofMaximum settings.maximumJobs
    progress := .start
    asked := [] }
  match extraction session with
  | .ok value session => .ok value { console with tree := session.tree }
  | .error failure session => .error (report failure) { console with tree := session.tree }

def sniff (machine : Machine) (file : String) : Action Unit := do
  match (← get).tree.nodeAt? machine.workingDirectory file with
  | none => throw (.notOpened file)
  | some .directory => throw .isDirectory
  | some (.file contents _) =>
      match (ContainerKind.sniff (Stream.ofBytes contents)).1 with
      | some kind => printLine kind.label
      | none => printLine "unknown"

def list (machine : Machine) (config? : Option String) (archive : String) : Action Unit := do
  let settings ← loadSettings machine config?
  let results ← runExtraction settings (.notListed archive)
    ((machine.extractor settings).extract hashRequest (.file archive))
  modify fun console => {
    console with
    output := console.output ++ listing results
    errors := console.errors ++ s!"\nTotal: {results.length} files\n" }

def extract (machine : Machine) (config? : Option String) (archive output : String)
    (only : List String) : Action Unit := do
  let settings ← loadSettings machine config?
  let only? := if only.isEmpty then none else some only
  let count ← runExtraction settings (.notExtracted archive)
    ((machine.extractor settings).extractTo (.file archive) output only?)
  printLine s!"Extracted {count} files to {output}"

def openArchive (machine : Machine) (report : String → Failure) (path : String) :
    Action Bethesda.Archive := do
  let base := machine.workingDirectory
  let source ← orFail (fun _ => report path) ((Origin.file path).load (← get).tree base)
  orFail (fun _ => report path) (Bethesda.Archive.openDetected source)

/-- An opened archive over what its file holds now. -/
def reread (machine : Machine) (path : String) (archive : Bethesda.Archive) :
    Action Bethesda.Archive := do
  match (Origin.file path).load (← get).tree machine.workingDirectory with
  | .ok source => pure (archive.withSource source)
  | .error _ => pure archive

def createOutput (machine : Machine) (output : String) : Action Location := fun console =>
  match console.tree.locate? machine.workingDirectory output with
  | none => .error (.notCreated output) console
  | some location =>
      match FileTree.writeFile location [] console.tree with
      | .ok _ tree => .ok location { console with tree }
      | .error _ _ => .error (.notCreated output) console

/-- Rebuilds a game archive and verifies the result.  The output exists from before the entries
are read. -/
def rebuild (machine : Machine) (isVerbose : Bool) (path output : String) : Action Unit := do
  let source ← openArchive machine .notOpened path
  if isVerbose then
    printLine source.state.toJson.render
  let location ← createOutput machine output
  let emptied ← reread machine path source
  let (count, bytes) ← orFail .extraction emptied.rebuild
  modify fun console => { console with tree := console.tree.insert location (.file bytes false) }
  let rebuilt ← openArchive machine .notReopened output
  let source ← reread machine path source
  let before ← orFail .extraction (archiveHashes source)
  let after ← orFail .extraction (archiveHashes rebuilt)
  match discrepancy? before after with
  | some found => throw (.discrepancy found)
  | none => printLine s!"Rebuilt {count} files into {output} ({ContentHash.text bytes})"

def packBtar (machine : Machine) (output directory : String) : Action Unit := fun console =>
  match Btar.packDirectory machine.workingDirectory directory output console.tree with
  | .ok count tree =>
      printLine s!"Packed {count} files into {output}" { console with tree }
  | .error failure tree => .error (.pack failure) { console with tree }

def Invocation.action (machine : Machine) (invocation : Invocation) : Action Unit :=
  match invocation.command with
  | .sniff file => sniff machine file
  | .list archive => list machine invocation.config? archive
  | .extract archive output only => extract machine invocation.config? archive output only
  | .rebuild archive output => rebuild machine invocation.isVerbose archive output
  | .packBtar output directory => packBtar machine output directory

def versionLine : String :=
  programName ++ " " ++ programVersion ++ "\n"

def run (machine : Machine) (arguments : List String) : Outcome :=
  match parse arguments with
  | .error .usage => ⟨machine.tree, 2, "", HelpTopic.program.text⟩
  | .error (.help topic) => ⟨machine.tree, 0, topic.text, ""⟩
  | .error .version => ⟨machine.tree, 0, versionLine, ""⟩
  | .ok invocation =>
      match invocation.action machine ⟨machine.tree, "", ""⟩ with
      | .ok _ console => ⟨console.tree, 0, console.output, console.errors⟩
      | .error failure console =>
          ⟨console.tree, 1, console.output, console.errors ++ failure.report⟩

end CommandLine
end GameArchive
