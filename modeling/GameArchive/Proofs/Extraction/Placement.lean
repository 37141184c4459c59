import GameArchive.Proofs.Extraction.Recording
import GameArchive.Proofs.FileTree
import GameArchive.Proofs.Path.Descent
import GameArchive.Extraction.ToDirectory

/-!
# Where entries are put

An entry that is put at a path stands in a file at the place that the path means.  An extraction
into a directory can be made to record which entries it puts there, and between which trees.
-/

namespace GameArchive
namespace FileTree

variable {tree next : FileTree} {location : Location}

theorem createDirectoriesFrom_location {base created : Location} {names : List String}
    (succeeded : createDirectoriesFrom base names tree = .ok created next) :
    created = Location.follow base names := by
  induction names generalizing base tree with
  | nil =>
      cases succeeded
      rfl
  | cons name names ih =>
      rw [createDirectoriesFrom_cons] at succeeded
      rw [Location.follow]
      split at succeeded
      · next stays =>
          rw [if_pos stays]
          exact ih succeeded
      · next moves =>
          rw [if_neg moves]
          split at succeeded
          · next up =>
              rw [if_pos up]
              exact ih succeeded
          · next down =>
              rw [if_neg down]
              split at succeeded
              · exact ih succeeded
              · cases succeeded
              · split at succeeded
                · exact ih succeeded
                · cases succeeded

theorem resolve_eq_pathNames (base : Location) (path : String) :
    Location.resolve base path =
      Location.follow (pathNames base path).1 (pathNames base path).2 := by
  unfold Location.resolve pathNames
  split <;> rfl

/-- A file that can be created at a path has the place that the path means. -/
theorem prepareFile_location {base : Location} {path : String}
    (prepared : prepareFile base path tree = .ok location next) :
    location = Location.resolve base path := by
  rw [prepareFile_eq] at prepared
  rw [resolve_eq_pathNames]
  split at prepared
  · cases prepared
  · next made middle created =>
      rw [createDirectoriesFrom_location created] at prepared
      split at prepared
      · cases prepared
      · next name last =>
          obtain ⟨front, row⟩ := List.getLast?_eq_some_iff.mp last
          split at prepared
          · cases prepared
          · next named =>
              simp only [not_or] at named
              cases prepared
              rw [row, List.dropLast_concat, Location.follow_append, Location.follow,
                if_neg (not_or.mpr ⟨named.1, named.2.1⟩), if_neg named.2.2, Location.follow]

theorem moveFile_ok {origin target : Location}
    (moved : moveFile origin target tree = .ok () next) :
    ∃ contents, next.contents? target = some contents := by
  unfold moveFile at moved
  rw [Outcome.get_bind] at moved
  cases there : tree.node? origin with
  | none =>
      rw [there] at moved
      cases moved
  | some node =>
      rw [there] at moved
      cases node with
      | directory => cases moved
      | file contents isExecutable =>
          simp only at moved
          split at moved
          · next admitted =>
              cases moved
              have below : target ≠ [] := by
                rintro rfl
                cases admitted
              exact ⟨contents, contents?_insert_self below⟩
          · cases moved

end FileTree

theorem ExtractError.onBehalfOf_ok {σ α : Type} {archive : String} {action : EStateM IoError σ α}
    {before after : σ} {value : α}
    (succeeded : onBehalfOf archive action before = .ok value after) :
    action before = .ok value after := by
  unfold onBehalfOf at succeeded
  split at succeeded
  · next outcome =>
      cases succeeded
      exact outcome
  · cases succeeded

/-- An entry that has been put at a path stands at the place that the path means. -/
theorem Entry.moveTo_ok {entry : Entry} {base : Location} {target : String}
    {tree next : FileTree} (moved : entry.moveTo base target tree = .ok () next) :
    ∃ contents, next.contents? (Location.resolve base target) = some contents := by
  cases entry with
  | native path location =>
      obtain ⟨place, middle, prepared, put⟩ :=
        Outcome.state_bind_eq_ok_iff.mp (ExtractError.onBehalfOf_ok moved)
      rw [← FileTree.prepareFile_location prepared]
      exact FileTree.moveFile_ok put
  | bethesda file modified =>
      obtain ⟨place, middle, prepared, put⟩ := Outcome.state_bind_eq_ok_iff.mp moved
      rw [← FileTree.prepareFile_location (ExtractError.onBehalfOf_ok prepared)]
      cases unpacked : unpack file with
      | error failure =>
          rw [unpacked] at put
          cases put
      | ok bytes =>
          rw [unpacked] at put
          exact ⟨bytes, (FileTree.writeFile_ok (ExtractError.onBehalfOf_ok put)).1⟩
  | btar source record modified =>
      obtain ⟨⟨⟩, middle, put, whole⟩ := Outcome.state_bind_eq_ok_iff.mp moved
      have unchanged : next = middle := by
        split at whole
        · cases whole
        · cases whole
          rfl
      obtain ⟨place, directories, prepared, written⟩ :=
        Outcome.state_bind_eq_ok_iff.mp (ExtractError.onBehalfOf_ok put)
      rw [unchanged, ← FileTree.prepareFile_location prepared]
      exact ⟨_, (FileTree.writeFile_ok written).1⟩

namespace Extraction

/-- What was done with an entry that has been put below a destination. -/
structure Placement where
  entry : Entry
  before : FileTree
  after : FileTree

/-- A projection that gives a record of what it does. -/
def recorded (project : Projection Unit) : Projection Placement := fun entry surroundings =>
  match project entry surroundings with
  | .ok _ after => .ok ⟨entry, surroundings.tree, after.tree⟩ after
  | .error failure after => .error failure after

def recordBelow (workingDirectory : Location) (destination : String) : Projection Placement :=
  recorded (placeBelow workingDirectory destination)

/-- The recorded placement is one of an entry of a path, and has put it below a destination. -/
structure Placement.Below (workingDirectory : Location) (destination path : String)
    (placement : Placement) : Prop where
  ofPath : placement.entry.path = path
  moved : placement.entry.moveTo workingDirectory (Path.join destination path) placement.before =
    .ok () placement.after
  stands : (placement.after.contents?
    (Location.resolve workingDirectory (Path.join destination path))).isSome

theorem recorded_map (project : Projection Unit) :
    (recorded project).map (fun _ => ()) = project := by
  funext entry surroundings
  rw [Projection.map, Outcome.state_map, recorded]
  cases project entry surroundings <;> rfl

theorem recorded_ok {project : Projection Unit} {entry : Entry} {before after : Surroundings}
    {placement : Placement} (placed : recorded project entry before = .ok placement after) :
    project entry before = .ok () after ∧ placement = ⟨entry, before.tree, after.tree⟩ := by
  unfold recorded at placed
  split at placed
  · next outcome =>
      cases placed
      exact ⟨outcome, rfl⟩
  · cases placed

theorem recordBelow_ok {workingDirectory : Location} {destination : String} {entry : Entry}
    {before after : Surroundings} {placement : Placement}
    (placed : recordBelow workingDirectory destination entry before = .ok placement after) :
    placement.Below workingDirectory destination entry.path := by
  obtain ⟨done, rfl⟩ := recorded_ok placed
  unfold placeBelow at done
  split at done
  · split at done
    · next moved =>
        cases done
        obtain ⟨contents, stands⟩ := Entry.moveTo_ok moved
        exact ⟨rfl, moved, Option.isSome_iff_exists.mpr ⟨contents, stands⟩⟩
    · cases done
  · cases done

/-- An extraction into a directory counts what it records. -/
theorem extractTo_eq (extractor : Extractor) (origin : Origin) (destination : String)
    (only? : Option (List String)) :
    extractor.extractTo origin destination only? =
      List.length <$> extractor.extract
        ⟨isNamed only?, recordBelow extractor.workingDirectory destination, only?⟩ origin := by
  have same := extract_map extractor (fun _ => ())
    ⟨isNamed only?, recordBelow extractor.workingDirectory destination, only?⟩ origin
  rw [Request.map, recordBelow, recorded_map] at same
  have counted : ∀ log : Results Placement, (log.map fun _ => ()).length = log.length :=
    fun log => List.length_map _
  unfold Extractor.extractTo
  simp only [recordBelow, bind_pure_comp, same, Functor.map_map, counted]

theorem extractTo_of_recorded {extractor : Extractor} {origin : Origin} {destination : String}
    {only? : Option (List String)} {session after : Session} {log : Results Placement}
    (extracted : extractor.extract
      ⟨isNamed only?, recordBelow extractor.workingDirectory destination, only?⟩ origin session =
        .ok log after) :
    extractor.extractTo origin destination only? session = .ok log.length after := by
  rw [extractTo_eq, Outcome.state_map, extracted]

end Extraction
end GameArchive
