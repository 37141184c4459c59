import GameArchive.FileTree
import GameArchive.Json.Fields
import GameArchive.Json.Parser
import GameArchive.Text.Decimal
import GameArchive.Text.Quoted

/-!
# Settings

The settings are a JSON record in which every field may be missing.  Some of them can be
overridden from the environment.  Before they are used they are checked: the paths have to exist
and the counts must not be zero.

The numbers of jobs and of workers depend on the machine when they are not set.
-/

namespace GameArchive

structure Settings where
  /-- The directory for temporary files, when it is not that of the system. -/
  temporaryDirectory? : Option String
  /-- The path of the archiver, when it is not to be looked for. -/
  archiver? : Option String
  /-- The number of jobs at one time. -/
  maximumJobs : Nat
  /-- The number of bytes in one second, or zero for any number. -/
  maximumThroughput : Nat
  /-- The number of workers that project the files of one archive. -/
  parallelism : Nat
  deriving Repr, DecidableEq

namespace Settings

/-- Why there are no settings. -/
inductive Fault where
  | unreadable (path : String)
  /-- The file does not hold the record. -/
  | malformed (path : String)
  | missingDirectory (path : String)
  | missingArchiver (path : String)
  | zeroJobs
  | zeroParallelism
  deriving Repr, DecidableEq

def Fault.message : Fault → String
  | unreadable path => "Failed to read config " ++ Quoted.quote path
  | malformed path => "Failed to parse config " ++ Quoted.quote path
  | missingDirectory path => s!"Temp directory not found: {path}"
  | missingArchiver path => s!"7-Zip binary not found: {path}"
  | zeroJobs => "max_jobs must be at least 1"
  | zeroParallelism => "parallelism must be at least 1"

/-- The settings on a machine with some number of processors when nothing is set. -/
def unset (processors : Nat) : Settings where
  temporaryDirectory? := none
  archiver? := none
  maximumJobs := processors
  maximumThroughput := 0
  parallelism := processors

def countBound : Nat := UInt64.size

def fieldNames : List String :=
  ["temp_dir", "sevenzip_path", "max_jobs", "max_throughput", "parallelism"]

/-- The path of a field, which may be null. -/
def path? : Json → Option (Option String)
  | .null => some none
  | value => value.text?.map some

def fieldOr {α : Type} (missing : α) (read? : Json → Option α) : Option Json → Option α
  | none => some missing
  | some value => read? value

def ofJson? (processors : Nat) (value : Json) : Option Settings := do
  let fields ← value.fields?
  match ← fields.optionalValues? fieldNames with
  | [temporaryDirectory, archiver, maximumJobs, maximumThroughput, parallelism] =>
      let missing := unset processors
      let count? := Json.natural? countBound
      pure {
        temporaryDirectory? := ← fieldOr missing.temporaryDirectory? path? temporaryDirectory
        archiver? := ← fieldOr missing.archiver? path? archiver
        maximumJobs := ← fieldOr missing.maximumJobs count? maximumJobs
        maximumThroughput := ← fieldOr missing.maximumThroughput count? maximumThroughput
        parallelism := ← fieldOr missing.parallelism count? parallelism }
  | _ => none

def pathToJson : Option String → Json
  | none => .null
  | some path => .ofString path

def toJson (settings : Settings) : Json :=
  Json.record [
    ("temp_dir", pathToJson settings.temporaryDirectory?),
    ("sevenzip_path", pathToJson settings.archiver?),
    ("max_jobs", .ofNat settings.maximumJobs),
    ("max_throughput", .ofNat settings.maximumThroughput),
    ("parallelism", .ofNat settings.parallelism)]

def ofFile (processors : Nat) (path : String) (contents? : Option Bytes) :
    Except Fault Settings :=
  match contents?.map Utf8.decode with
  | none | some (.error _) => .error (.unreadable path)
  | some (.ok text) =>
      match (Json.parse? text).bind (ofJson? processors) with
      | some settings => .ok settings
      | none => .error (.malformed path)

abbrev Environment := List (String × String)

/-- The value of a variable that is set and not empty. -/
def environmentValue? (environment : Environment) (name : String) : Option String :=
  (environment.lookup name).filter (· ≠ "")

def override (environment : Environment) (settings : Settings) : Settings where
  temporaryDirectory? :=
    environmentValue? environment "MODARC_TEMP_DIR" <|> settings.temporaryDirectory?
  archiver? := environmentValue? environment "MODARC_7Z" <|> settings.archiver?
  maximumJobs :=
    let jobs? := do
      let text ← environment.lookup "MODARC_MAX_JOBS"
      let jobs ← Decimal.parse? countBound text.toList
      if jobs = 0 then none else some jobs
    jobs?.getD settings.maximumJobs
  maximumThroughput := settings.maximumThroughput
  parallelism := settings.parallelism

/-- Checks the settings against the files as seen from a working directory. -/
def check (settings : Settings) (tree : FileTree) (base : Location) : Except Fault Unit := do
  if let some path := settings.temporaryDirectory? then
    unless tree.nodeAt? base path = some .directory do
      throw (.missingDirectory path)
  if let some path := settings.archiver? then
    unless (tree.nodeAt? base path).isSome do
      throw (.missingArchiver path)
  if settings.maximumJobs = 0 then
    throw .zeroJobs
  if settings.parallelism = 0 then
    throw .zeroParallelism

def temporaryDirectory (settings : Settings) (systemDirectory : String) : String :=
  settings.temporaryDirectory?.getD systemDirectory

end Settings
end GameArchive
