import GameArchive.Entry
import GameArchive.Limiter.Basic

/-!
# Extraction sessions

A session holds what an extraction works with: the files, the limiter that is shared with others,
the counted bytes, and whether the request has been cancelled.  What is done with an entry is up
to a projection, which sees the files and may cancel the request, but sees no more of the session.

`withSlot` and `withScratch` run an action while a slot is held and while a scratch directory
exists; both are given back however the action ends.
-/

namespace GameArchive

/-- What a projection sees of a session. -/
structure Surroundings where
  tree : FileTree
  isCancelled : Bool
  deriving Repr, DecidableEq

structure Session extends Surroundings where
  limiter : Limiter
  progress : Progress
  /-- The paths that the filter was asked about, first to last. -/
  asked : List String
  deriving Repr, DecidableEq

/-- Why a projection failed. -/
inductive ProjectionFailure where
  | extraction (cause : ExtractError)
  /-- In reading or writing. -/
  | io (cause : IoError)
  /-- With messages of its own, outermost first. -/
  | messages (chain : List String)
  deriving Repr, DecidableEq

def ProjectionFailure.ofEntry (archive entry : String) : ProjectionFailure → ExtractError
  | extraction cause => .projection archive entry cause
  | io cause => .projectionIo archive entry cause
  | messages chain => .projectionMessage archive entry chain

abbrev Projection (α : Type) := Entry → EStateM ProjectionFailure Surroundings α

structure Request (α : Type) where
  filter : String → Bool
  project : Projection α
  /-- The entries that have to be there, each of which may be named more than once. -/
  only? : Option (List String)

abbrev Extraction := EStateM ExtractError Session

namespace Extraction

/-- Fails when the request has been cancelled. -/
def checkCancelled (archive : String) : Extraction Unit := fun session =>
  if session.isCancelled then .error (.cancelled archive) session else .ok () session

def ask {α : Type} (request : Request α) (path : String) : Extraction Bool := fun session =>
  .ok (request.filter path) { session with asked := session.asked ++ [path] }

/-- Does with an entry what is to be done with it. -/
def project {α : Type} (request : Request α) (archive : String) (entry : Entry) :
    Extraction α := fun session =>
  match request.project entry session.toSurroundings with
  | .ok value surroundings => .ok value { session with toSurroundings := surroundings }
  | .error failure surroundings =>
      .error (failure.ofEntry archive entry.path) { session with toSurroundings := surroundings }

def report (bytes : UInt64) : Extraction Unit := fun session =>
  .ok () {
    session with
    limiter := session.limiter.count bytes
    progress := session.progress.add bytes }

/-- Changes files on behalf of an archive. -/
def onFiles {α : Type} (archive : String) (action : EStateM IoError FileTree α) :
    Extraction α := fun session =>
  match action session.tree with
  | .ok value tree => .ok value { session with tree }
  | .error failure tree => .error (.io archive failure) { session with tree }

def releaseSlot (session : Session) : Session :=
  { session with limiter := session.limiter.release }

/-- Runs an action while a slot is held.  Nothing happens to a session while it waits for a slot,
except that the request may be cancelled, so that a wait can only end with that. -/
def withSlot {α : Type} (archive : String) (action : Extraction α) : Extraction α :=
  fun session =>
    match session.limiter.attempt session.isCancelled ("Extracting " ++ archive) 0 with
    | .cancelled | .waiting => .error (.cancelled archive) session
    | .begun _ limiter =>
        match action { session with limiter } with
        | .ok value session => .ok value (releaseSlot session)
        | .error failure session => .error failure (releaseSlot session)

def scratchName (index : Nat) : String :=
  "modarc-" ++ toString index

/-- A location in a directory at which nothing stands.  Among one more locations than there are
nodes one at least is free. -/
def freshScratch (tree : FileTree) (root : Location) : Location :=
  let candidates := (List.range (tree.nodes.length + 1)).map fun index =>
    root ++ [scratchName index]
  (candidates.find? fun location => !tree.contains location).getD root

/-- Creates a scratch directory in a directory, which is created too. -/
def createScratch (base : Location) (root : String) : EStateM IoError FileTree Location := do
  let root ← FileTree.prepareDirectory base root
  let scratch := freshScratch (← get) root
  FileTree.createDirectories scratch
  pure scratch

def removeScratch (scratch : Location) (session : Session) : Session :=
  { session with tree := session.tree.eraseBelow scratch }

def withScratch {α : Type} (archive : String) (base : Location) (root : String)
    (action : Location → Extraction α) : Extraction α := do
  let scratch ← onFiles archive (createScratch base root)
  fun session =>
    match action scratch session with
    | .ok value session => .ok value (removeScratch scratch session)
    | .error failure session => .error failure (removeScratch scratch session)

end Extraction
end GameArchive
