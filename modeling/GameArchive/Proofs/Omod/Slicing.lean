import GameArchive.Proofs.FileTree
import GameArchive.Proofs.Omod.Underrun
import GameArchive.Proofs.Reading

/-!
# Cutting a payload exactly

Whatever the pieces in which a payload arrives, every file gets the part of it that begins where
the files before it end.  The invariant ties the bytes that have arrived to the files that have
been created: each of them holds what has arrived of its part, and only the last one may wait for
more.

Whether the system refuses a file is settled by the tree at the start, because what is written to
the files before it does not change the shape of the tree.
-/

namespace GameArchive
namespace Omod

/-- The files with safe names, as they are reported. -/
def safeFiles (files : List ListedFile) : List WrittenFile :=
  (files.filter fun file => Path.isSafe file.name).map fun file =>
    ⟨Path.toArchive file.name, Path.toNative file.name⟩

namespace SparseWriter

/-- Every file holds its part of a stream, as far as the stream has it. -/
def Holds (destination : Location) (files : List ListedFile) (stream : Bytes)
    (tree : FileTree) : Prop :=
  ∀ (index : Nat) (file : ListedFile), files[index]? = some file →
    tree.contents? (target destination index file) =
      some (stream.window (payloadLength (files.take index)) file.length)

/-- Whether each of some files can be created after those before it. -/
def creatable (destination : Location) : (index : Nat) → List ListedFile → FileTree → Bool
  | _, [], _ => true
  | index, file :: files, tree =>
      match FileTree.createFile (target destination index file) tree with
      | .ok _ next => creatable destination (index + 1) files next
      | .error .. => false

/-! ## The creation of one file -/

section Create

variable {writer next : SparseWriter} {location : Location}

theorem create_eq (location : Location) (writer : SparseWriter) :
    create location writer =
      match FileTree.createFile location writer.tree with
      | .ok _ tree => .ok () { writer with tree }
      | .error failure tree => .error failure { writer with tree } := by
  rw [FileTree.createFile_eq]
  rfl

theorem createFile_of_create_ok (created : create location writer = .ok () next) :
    FileTree.createFile location writer.tree = .ok () next.tree := by
  rw [create_eq] at created
  split at created
  · next outcome =>
      cases created
      exact outcome
  · cases created

theorem createFile_of_create_error {failure : IoError}
    (failed : create location writer = .error failure next) :
    FileTree.createFile location writer.tree = .error failure next.tree := by
  rw [create_eq] at failed
  split at failed
  · cases failed
  · next outcome =>
      cases failed
      exact outcome

theorem creatable_of_sameShape {destination : Location} {index : Nat} {files : List ListedFile}
    {first second : FileTree} (same : first.SameShape second)
    (able : creatable destination index files first = true) :
    creatable destination index files second = true := by
  induction files generalizing index first second with
  | nil => rfl
  | cons file files ih =>
      rw [creatable] at able ⊢
      split at able
      · next created =>
          obtain ⟨further, alsoCreated, sameNext⟩ := FileTree.createFile_sameShape same created
          rw [alsoCreated]
          exact ih sameNext able
      · cases able

/-- What files hold does not matter for the creation of others. -/
theorem creatable_append (destination : Location) (index : Nat) (files : List ListedFile)
    (tree : FileTree) (location : Location) (bytes : Bytes) :
    creatable destination index files (tree.append location bytes) =
      creatable destination index files tree := by
  have same := FileTree.sameShape_append tree location bytes
  rw [Bool.eq_iff_iff]
  exact ⟨creatable_of_sameShape same.symm, creatable_of_sameShape same⟩

end Create

/-! ## The files that are created -/

theorem payloadLength_take_add_le {files : List ListedFile} {index : Nat} {file : ListedFile}
    (there : files[index]? = some file) :
    payloadLength (files.take index) + file.length ≤ payloadLength files := by
  induction files generalizing index with
  | nil => simp at there
  | cons first files ih =>
      cases index with
      | zero =>
          have same : first = file := by simpa using there
          subst same
          rw [List.take_zero, payloadLength, payloadLength]
          omega
      | succ index =>
          have further := ih (by simpa using there)
          rw [List.take_succ_cons, payloadLength, payloadLength]
          omega

theorem target_ne {destination : Location} {files : List ListedFile}
    (apart : (files.mapIdx (target destination)).Nodup) {first second : Nat}
    {one other : ListedFile} (firstThere : files[first]? = some one)
    (secondThere : files[second]? = some other) (different : first ≠ second) :
    target destination first one ≠ target destination second other := by
  intro same
  have firstTarget : (files.mapIdx (target destination))[first]? =
      some (target destination first one) := by
    rw [List.getElem?_mapIdx, firstThere, Option.map_some]
  have secondTarget : (files.mapIdx (target destination))[second]? =
      some (target destination second other) := by
    rw [List.getElem?_mapIdx, secondThere, Option.map_some]
  have below : first < (files.mapIdx (target destination)).length :=
    (List.getElem?_eq_some_iff.mp firstTarget).1
  refine different ((List.getElem?_inj below apart).mp ?_)
  rw [firstTarget, secondTarget, same]

theorem getElem?_concat_eq_some {files : List ListedFile} {file other : ListedFile} {index : Nat}
    (there : (files ++ [file])[index]? = some other) :
    index = files.length ∧ other = file ∨ index < files.length ∧ files[index]? = some other := by
  have below := (List.getElem?_eq_some_iff.mp there).1
  rw [List.length_append, List.length_singleton] at below
  by_cases last : index = files.length
  · subst last
    rw [List.getElem?_concat_length] at there
    exact .inl ⟨rfl, (Option.some.inj there).symm⟩
  · have before : index < files.length := by omega
    rw [List.getElem?_append_left before] at there
    exact .inr ⟨before, there⟩

/-- The writer has created some files with what a stream has for them, and no other file.  `able`
tells whether all files can be created, which is left to those that wait. -/
structure Tracks (archive : String) (destination : Location) (able : Bool)
    (opened waiting : List ListedFile) (stream : Bytes) (writer : SparseWriter) : Prop where
  sameArchive : writer.archive = archive
  sameDestination : writer.destination = destination
  pending : writer.pending = numbered opened.length waiting
  written : writer.written = safeFiles opened
  holds : Holds destination opened stream writer.tree
  admitted : creatable destination opened.length waiting writer.tree = able

section Tracks

variable {archive : String} {destination : Location} {able : Bool}
  {opened waiting files : List ListedFile} {file : ListedFile} {stream : Bytes}
  {writer created : SparseWriter}

theorem Tracks.isAble (tracks : Tracks archive destination able opened [] stream writer) :
    able = true :=
  tracks.admitted.symm

/-- A file that is created after the stream has come to its start holds what the stream has
for it: nothing yet. -/
theorem Tracks.note (apart : (files.mapIdx (target destination)).Nodup)
    (split : files = opened ++ file :: waiting) (full : payloadLength opened = stream.length)
    (tracks : Tracks archive destination able opened (file :: waiting) stream writer)
    (succeeded : create (target destination opened.length file)
      { writer with pending := numbered (opened.length + 1) waiting } = .ok () created) :
    Tracks archive destination able (opened ++ [file]) waiting stream
      (created.note opened.length file) := by
  have outcome := createFile_of_create_ok succeeded
  obtain ⟨here, elsewhere⟩ := FileTree.createFile_ok outcome
  have fileThere : files[opened.length]? = some file := by simp [split]
  constructor
  · rw [note_eq, create_ok succeeded]
    exact tracks.sameArchive
  · rw [note_eq, create_ok succeeded]
    exact tracks.sameDestination
  · rw [note_eq, create_ok succeeded, List.length_append, List.length_singleton]
  · rw [safeFiles, List.filter_append, List.map_append, ← safeFiles, ← tracks.written,
      SparseWriter.note, create_ok succeeded]
    by_cases safe : Path.isSafe file.name
    · simp [safe, targetPath]
    · simp [safe]
  · rw [note_eq]
    intro index other there
    rcases getElem?_concat_eq_some there with ⟨rfl, rfl⟩ | ⟨before, inOpened⟩
    · rw [here, List.take_left, Bytes.window_end _ _ (Nat.le_of_eq full.symm)]
    · have otherThere : files[index]? = some other := by
        rw [split, List.getElem?_append_left before, inOpened]
      rw [List.take_append_of_le_length (Nat.le_of_lt before)]
      exact elsewhere _ _ (target_ne apart otherThere fileThere (Nat.ne_of_lt before))
        (tracks.holds index other inOpened)
  · have stillAble := tracks.admitted
    rw [creatable, outcome] at stillAble
    rw [note_eq, List.length_append, List.length_singleton]
    exact stillAble

theorem Tracks.append (apart : (files.mapIdx (target destination)).Nodup)
    (split : files = opened ++ file :: waiting) (before : payloadLength opened ≤ stream.length)
    {bytes : Bytes}
    (room : stream.length + bytes.length ≤ payloadLength opened + file.length)
    (tracks : Tracks archive destination able (opened ++ [file]) waiting stream writer)
    (current : Option OpenFile) :
    Tracks archive destination able (opened ++ [file]) waiting (stream ++ bytes)
      { writer with
        tree := writer.tree.append (target destination opened.length file) bytes, current } := by
  refine ⟨tracks.sameArchive, tracks.sameDestination, tracks.pending, tracks.written, ?_,
    (creatable_append ..).trans tracks.admitted⟩
  have fileThere : files[opened.length]? = some file := by simp [split]
  intro index other there
  have held := tracks.holds index other there
  rcases getElem?_concat_eq_some there with ⟨rfl, rfl⟩ | ⟨earlier, inOpened⟩
  · rw [FileTree.contents?_append_self held, List.take_left,
      Bytes.window_append_beyond _ _ before room]
  · -- The part of an earlier file ends before the bytes that arrive.
    have otherThere : files[index]? = some other := by
      rw [split, List.getElem?_append_left earlier, inOpened]
    have different := target_ne apart otherThere fileThere (Nat.ne_of_lt earlier)
    have within := Nat.le_trans (payloadLength_take_add_le inOpened) before
    rw [FileTree.contents?_append_of_ne _ different, held,
      List.take_append_of_le_length (Nat.le_of_lt earlier), Bytes.window_append_left _ _ within]

/-- How the creation of files ends: the system refuses one, a file that is not empty waits for its
first byte, or no file is left. -/
inductive Opens (archive : String) (destination : Location) (able : Bool) (files : List ListedFile)
    (stream : Bytes) : EStateM.Result IoError SparseWriter Bool → Prop where
  | refused (failed : SparseWriter) :
      able = false → failed.archive = archive →
        Opens archive destination able files stream (.error .system failed)
  | found (filled waiting : List ListedFile) (file : ListedFile) (next : SparseWriter) :
      files = filled ++ file :: waiting → payloadLength filled = stream.length →
        0 < file.length → Tracks archive destination able (filled ++ [file]) waiting stream next →
        next.current = some ⟨file, target destination filled.length file, file.length⟩ →
        Opens archive destination able files stream (.ok true next)
  | exhausted (next : SparseWriter) :
      payloadLength files = stream.length → Tracks archive destination able files [] stream next →
        next.current = none → Opens archive destination able files stream (.ok false next)

theorem openNext_opens (apart : (files.mapIdx (target destination)).Nodup)
    (split : files = opened ++ waiting) (full : payloadLength opened = stream.length)
    (tracks : Tracks archive destination able opened waiting stream writer)
    (closed : writer.current = none) :
    Opens archive destination able files stream (openNext writer.pending writer) := by
  induction waiting generalizing opened writer with
  | nil =>
      rw [List.append_nil] at split
      subst split
      rw [tracks.pending]
      exact .exhausted writer full tracks closed
  | cons file waiting ih =>
      -- The file in front goes from those that wait to those that are created.
      have sameDestination := tracks.sameDestination
      subst sameDestination
      rw [tracks.pending, numbered, openNext_cons_eq]
      cases outcome : create (target writer.destination opened.length file)
          { writer with pending := numbered (opened.length + 1) waiting } with
      | error failure failed =>
          have refused := createFile_of_create_error outcome
          have unable := tracks.admitted
          rw [creatable, refused] at unable
          rw [FileTree.createFile_error refused]
          refine .refused failed unable.symm ?_
          rw [create_error outcome]
          exact tracks.sameArchive
      | ok _ created =>
          have further := tracks.note apart split full outcome
          have stillClosed : (created.note opened.length file).current = none := by
            rw [note_eq, create_ok outcome]
            exact closed
          simp only
          split
          · next empty =>
              have longer : payloadLength (opened ++ [file]) = stream.length := by
                rw [payloadLength_append, payloadLength, payloadLength, empty, full, Nat.add_zero]
              have rest := ih (by simp [split]) longer further stillClosed
              rw [further.pending, List.length_append, List.length_singleton] at rest
              exact rest
          · next notEmpty =>
              exact .found opened waiting file _ split full (Nat.pos_of_ne_zero notEmpty)
                ⟨further.sameArchive, further.sameDestination, further.pending, further.written,
                  further.holds, further.admitted⟩ rfl

end Tracks

/-! ## The bytes that arrive -/

/-- A file is open, and a stream ends inside of it or at its start. -/
structure Awaits (archive : String) (destination : Location) (able : Bool)
    (files filled waiting : List ListedFile) (stream : Bytes) (filling : OpenFile)
    (writer : SparseWriter) : Prop where
  split : files = filled ++ filling.file :: waiting
  place : filling.location = target destination filled.length filling.file
  before : payloadLength filled ≤ stream.length
  lengths : payloadLength filled + filling.file.length = stream.length + filling.remaining
  someLeft : 0 < filling.remaining
  tracks : Tracks archive destination able (filled ++ [filling.file]) waiting stream writer
  current : writer.current = some filling

/-- A stream is cut among the files so far: it ends where the next file starts, which is not yet
created, or a file is open for what comes. -/
inductive Cuts (archive : String) (destination : Location) (able : Bool) (files : List ListedFile)
    (stream : Bytes) (writer : SparseWriter) : Prop where
  | between (opened waiting : List ListedFile) :
      files = opened ++ waiting → payloadLength opened = stream.length →
        Tracks archive destination able opened waiting stream writer → writer.current = none →
        Cuts archive destination able files stream writer
  | inside (filled waiting : List ListedFile) (filling : OpenFile) :
      Awaits archive destination able files filled waiting stream filling writer →
        Cuts archive destination able files stream writer

/-- How one write ends: the system refuses it, it finds no file for its bytes, or it takes some of
them. -/
inductive Writes (archive : String) (destination : Location) (able : Bool) (files : List ListedFile)
    (stream bytes : Bytes) : EStateM.Result IoError SparseWriter Nat → Prop
  | refused (failed : SparseWriter) :
      able = false → Writes archive destination able files stream bytes (.error .system failed)
  | surplus (failed : SparseWriter) :
      able = true → bytes ≠ [] → payloadLength files = stream.length →
        Holds destination files stream failed.tree →
        Writes archive destination able files stream bytes (.error (.surplusData archive) failed)
  | taken (count : Nat) (next : SparseWriter) :
      count ≤ bytes.length → (bytes ≠ [] → 0 < count) →
        Cuts archive destination able files (stream ++ bytes.take count) next →
        Writes archive destination able files stream bytes (.ok count next)

section Writes

variable {archive : String} {destination : Location} {able : Bool} {files : List ListedFile}
  {stream bytes : Bytes} {writer : SparseWriter}

theorem start_cuts (archive : String) (destination : Location) (files : List ListedFile)
    (tree : FileTree) :
    Cuts archive destination (creatable destination 0 files tree) files []
      (start archive destination files tree) :=
  .between [] files rfl rfl ⟨rfl, rfl, rfl, rfl, fun _ _ there => by simp at there, rfl⟩ rfl

theorem Cuts.length_le (cuts : Cuts archive destination able files stream writer) :
    stream.length ≤ payloadLength files := by
  cases cuts with
  | between opened waiting split full =>
      rw [split, payloadLength_append]
      omega
  | inside filled waiting filling awaits =>
      rw [awaits.split, payloadLength_append, payloadLength]
      have lengths := awaits.lengths
      omega

theorem Awaits.append (apart : (files.mapIdx (target destination)).Nodup)
    {filled waiting : List ListedFile} {filling : OpenFile}
    (awaits : Awaits archive destination able files filled waiting stream filling writer)
    (fits : bytes.length ≤ filling.remaining) :
    Cuts archive destination able files (stream ++ bytes)
      { writer with
        tree := writer.tree.append filling.location bytes
        current :=
          if filling.remaining - bytes.length = 0 then none
          else some { filling with remaining := filling.remaining - bytes.length } } := by
  obtain ⟨split, place, before, lengths, -, tracks, -⟩ := awaits
  have room : stream.length + bytes.length ≤ payloadLength filled + filling.file.length := by omega
  have further := tracks.append apart split before room
    (if filling.remaining - bytes.length = 0 then none
      else some { filling with remaining := filling.remaining - bytes.length })
  rw [← place] at further
  by_cases full : filling.remaining - bytes.length = 0
  · refine .between (filled ++ [filling.file]) waiting (by simp [split]) ?_ further (if_pos full)
    rw [payloadLength_append, payloadLength, payloadLength, List.length_append]
    omega
  · refine .inside filled waiting
      { filling with remaining := filling.remaining - bytes.length }
      ⟨split, place, ?_, ?_, Nat.pos_of_ne_zero full, further, if_neg full⟩
    · rw [List.length_append]
      omega
    · rw [List.length_append]
      simp only
      omega

theorem write_of_ne_nil (something : bytes ≠ []) :
    write bytes writer =
      match currentFile writer with
      | .error failure failed => .error failure failed
      | .ok filling next =>
          let taken := bytes.take filling.remaining
          .ok taken.length { next with
            tree := next.tree.append filling.location taken
            current :=
              if filling.remaining - taken.length = 0 then none
              else some { filling with remaining := filling.remaining - taken.length } } := by
  rw [write, if_neg (by simpa using something), Outcome.state_bind]
  cases currentFile writer <;> rfl

/-- What a write does once a file is open for its first byte. -/
theorem Awaits.writes (apart : (files.mapIdx (target destination)).Nodup)
    {filled waiting : List ListedFile} {filling : OpenFile} {next : SparseWriter}
    (awaits : Awaits archive destination able files filled waiting stream filling next)
    (chosen : currentFile writer = .ok filling next) (something : bytes ≠ []) :
    Writes archive destination able files stream bytes (write bytes writer) := by
  have someBytes : 0 < bytes.length := List.length_pos_iff.mpr something
  have someLeft := awaits.someLeft
  have taken : bytes.take (bytes.take filling.remaining).length = bytes.take filling.remaining := by
    rw [List.length_take, ← List.take_eq_take_min]
  rw [write_of_ne_nil something, chosen]
  refine .taken _ _ (List.length_take_le' _ _) (fun _ => ?_) ?_
  · rw [List.length_take]
    omega
  · rw [taken]
    exact awaits.append apart (List.length_take_le _ _)

theorem write_writes (apart : (files.mapIdx (target destination)).Nodup) (bytes : Bytes)
    (cuts : Cuts archive destination able files stream writer) :
    Writes archive destination able files stream bytes (write bytes writer) := by
  by_cases nothing : bytes = []
  · subst nothing
    refine .taken 0 writer (Nat.le_refl 0) (fun something => absurd rfl something) ?_
    rw [List.take_nil, List.append_nil]
    exact cuts
  · cases cuts with
    | inside filled waiting filling awaits =>
        exact awaits.writes apart (currentFile_of_some awaits.current) nothing
    | between opened waiting split full tracks closed =>
        have opens := openNext_opens apart split full tracks closed
        have chosen := currentFile_of_none closed
        generalize openNext writer.pending writer = outcome at opens chosen
        cases opens with
        | refused failed unable =>
            rw [write_of_ne_nil nothing, chosen]
            exact .refused failed unable
        | found filled further file next splitHere filledEq someLength nowTracks nowOpen =>
            simp only [nowOpen] at chosen
            have awaits : Awaits archive destination able files filled further stream _ next :=
              ⟨splitHere, rfl, Nat.le_of_eq filledEq, by simp only [filledEq], someLength,
                nowTracks, nowOpen⟩
            exact awaits.writes apart chosen nothing
        | exhausted next allFull nowTracks stillClosed =>
            simp only [stillClosed, nowTracks.sameArchive] at chosen
            rw [write_of_ne_nil nothing, chosen]
            exact .surplus next nowTracks.isAble nothing allFull nowTracks.holds

end Writes

/-- How the writing of all bytes that were offered ends: the system refuses a file, the bytes that
the files have no room for are refused, or all of them are cut. -/
inductive Takes (archive : String) (destination : Location) (able : Bool) (files : List ListedFile)
    (offered : Bytes) : EStateM.Result IoError SparseWriter Unit → Prop
  | refused (failed : SparseWriter) :
      able = false → Takes archive destination able files offered (.error .system failed)
  | surplus (failed : SparseWriter) :
      able = true → payloadLength files < offered.length →
        Holds destination files (offered.take (payloadLength files)) failed.tree →
        Takes archive destination able files offered (.error (.surplusData archive) failed)
  | taken (next : SparseWriter) :
      Cuts archive destination able files offered next →
        Takes archive destination able files offered (.ok () next)

section Takes

variable {archive : String} {destination : Location} {able : Bool} {files : List ListedFile}
  {stream bytes : Bytes} {writer : SparseWriter}

theorem writeWithin_takes (apart : (files.mapIdx (target destination)).Nodup) {fuel : Nat}
    (enough : bytes.length ≤ fuel) (cuts : Cuts archive destination able files stream writer) :
    Takes archive destination able files (stream ++ bytes) (writeWithin fuel bytes writer) := by
  induction fuel generalizing stream bytes writer with
  | zero =>
      have nothing : bytes = [] := List.eq_nil_of_length_eq_zero (by omega)
      subst nothing
      rw [List.append_nil]
      exact .taken writer cuts
  | succ fuel ih =>
      by_cases nothing : bytes = []
      · subst nothing
        rw [List.append_nil]
        exact .taken writer cuts
      · have someBytes : 0 < bytes.length := List.length_pos_iff.mpr nothing
        have writes := write_writes apart bytes cuts
        rw [writeWithin, if_neg (by simpa using nothing), Outcome.state_bind]
        generalize write bytes writer = outcome at writes
        cases writes with
        | refused failed unable => exact .refused failed unable
        | surplus failed isAble _ allFull holds =>
            refine .surplus failed isAble ?_ ?_
            · rw [List.length_append]
              omega
            · rw [Bytes.take_append stream bytes allFull.symm]
              exact holds
        | taken count next takesFew takesOne further =>
            have takesByte := takesOne nothing
            have fewer : (bytes.drop count).length ≤ fuel := by
              rw [List.length_drop]
              omega
            have rest := ih fewer further
            rw [List.append_assoc, List.take_append_drop] at rest
            exact rest

theorem forM_takes (apart : (files.mapIdx (target destination)).Nodup) (pieces : List Bytes)
    (cuts : Cuts archive destination able files stream writer) :
    Takes archive destination able files (stream ++ pieces.flatten)
      (forM pieces writeAll writer) := by
  induction pieces generalizing stream writer with
  | nil =>
      rw [List.flatten_nil, List.append_nil]
      exact .taken writer cuts
  | cons piece pieces ih =>
      have first := writeWithin_takes apart (Nat.le_refl piece.length) cuts
      rw [List.flatten_cons, ← List.append_assoc, List.forM_cons, Outcome.state_bind, writeAll]
      generalize writeWithin piece.length piece writer = outcome at first
      cases first with
      | refused failed unable => exact .refused failed unable
      | surplus failed isAble beyond holds =>
          refine .surplus failed isAble ?_ ?_
          · rw [List.length_append]
            omega
          · rw [List.take_append_of_le_length (Nat.le_of_lt beyond)]
            exact holds
      | taken next further => exact ih further

/-- The writing ends with the files of safe names, and every file holds its part of a stream; or the
system refuses a file that cannot be created. -/
def Ends (archive : String) (destination : Location) (able : Bool) (files : List ListedFile)
    (stream : Bytes) (writer : SparseWriter) : Prop :=
  if able then
    (finish writer).1 = .ok (safeFiles files) ∧
      Holds destination files stream (finish writer).2.tree
  else (finish writer).1 = .error (.io archive .system)

theorem Cuts.ends (apart : (files.mapIdx (target destination)).Nodup)
    (cuts : Cuts archive destination able files stream writer)
    (complete : stream.length = payloadLength files) :
    Ends archive destination able files stream writer := by
  cases cuts with
  | inside filled waiting filling awaits =>
      obtain ⟨split, -, -, lengths, someLeft, -, -⟩ := awaits
      rw [split, payloadLength_append, payloadLength] at complete
      omega
  | between opened waiting split full tracks closed =>
      have noneLeft : payloadLength waiting = 0 := by
        rw [split, payloadLength_append] at complete
        omega
      cases waiting with
      | nil =>
          rw [List.append_nil] at split
          subst split
          rw [Ends, if_pos tracks.isAble, finish, closed]
          simp only [createRest_of_nil _ tracks.pending, tracks.written]
          exact ⟨rfl, tracks.holds⟩
      | cons file waiting =>
          -- All files that wait are empty, so the first step of the loop creates every one of them.
          have empty : file.length = 0 := by
            rw [payloadLength] at noneLeft
            omega
          have opens := openNext_opens apart split full tracks closed
          have front : writer.pending = (opened.length, file) :: numbered _ waiting :=
            tracks.pending
          rw [Ends, finish, closed]
          simp only
          rw [front, List.length_cons, createRest, front]
          rw [front] at opens
          simp only [empty, ne_eq, not_true_eq_false, if_false]
          generalize openNext _ writer = outcome at opens
          cases opens with
          | refused failed unable sameArchive =>
              rw [unable, ← sameArchive, if_neg Bool.false_ne_true]
              rfl
          | found filled further next opensAt splitHere filledEq someLength =>
              rw [splitHere, payloadLength_append, payloadLength] at complete
              omega
          | exhausted next allFull nowTracks =>
              rw [if_pos nowTracks.isAble]
              simp only [createRest_of_nil _ nowTracks.pending, nowTracks.written]
              exact ⟨rfl, nowTracks.holds⟩

end Takes

/-- The writers that a series of writes leads to, with the bytes that they took. -/
inductive Feeds (initial : SparseWriter) : (stream : Bytes) → SparseWriter → Prop where
  | start : Feeds initial [] initial
  | write {stream : Bytes} {taken : Nat} {writer next : SparseWriter} (bytes : Bytes) :
      Feeds initial stream writer → write bytes writer = .ok taken next →
        Feeds initial (stream ++ bytes.take taken) next

theorem Feeds.cuts {archive : String} {destination : Location} {files : List ListedFile}
    {tree : FileTree} {stream : Bytes} {writer : SparseWriter}
    (apart : (files.mapIdx (target destination)).Nodup)
    (run : Feeds (SparseWriter.start archive destination files tree) stream writer) :
    Cuts archive destination (creatable destination 0 files tree) files stream writer := by
  induction run with
  | start => exact start_cuts archive destination files tree
  | write bytes before written ih =>
      have writes := write_writes apart bytes ih
      rw [written] at writes
      cases writes with
      | taken count next takesFew takesOne further => exact further

section Outcomes

variable {archive : String} {destination : Location} {able : Bool} {files : List ListedFile}
  {stream bytes offered : Bytes} {writer : SparseWriter}

theorem Writes.outcome {outcome : EStateM.Result IoError SparseWriter Nat}
    (writes : Writes archive destination able files stream bytes outcome) :
    (∃ failed, outcome = .error .system failed) ∧ able = false ∨
      if bytes ≠ [] ∧ stream.length = payloadLength files then
        ∃ failed, outcome = .error (.surplusData archive) failed ∧
          Holds destination files stream failed.tree
      else
        ∃ taken next, outcome = .ok taken next ∧ taken ≤ bytes.length ∧
          (bytes ≠ [] → 0 < taken) := by
  cases writes with
  | refused failed unable => exact .inl ⟨⟨failed, rfl⟩, unable⟩
  | surplus failed isAble something allFull holds =>
      right
      rw [if_pos ⟨something, allFull.symm⟩]
      exact ⟨failed, rfl, holds⟩
  | taken count next takesFew takesOne further =>
      have notFull : ¬ (bytes ≠ [] ∧ stream.length = payloadLength files) := by
        rintro ⟨something, allFull⟩
        have within := further.length_le
        have takesByte := takesOne something
        rw [List.length_append, List.length_take] at within
        omega
      right
      rw [if_neg notFull]
      exact ⟨count, next, rfl, takesFew, takesOne⟩

theorem Takes.outcome_of_complete (apart : (files.mapIdx (target destination)).Nodup)
    {outcome : EStateM.Result IoError SparseWriter Unit}
    (takes : Takes archive destination able files offered outcome)
    (complete : offered.length = payloadLength files) :
    (∃ failed, outcome = .error .system failed) ∧ able = false ∨
      ∃ writer, outcome = .ok () writer ∧
        Ends archive destination able files offered writer := by
  cases takes with
  | refused failed unable => exact .inl ⟨⟨failed, rfl⟩, unable⟩
  | surplus failed isAble beyond holds => omega
  | taken writer cuts => exact .inr ⟨writer, rfl, cuts.ends apart complete⟩

theorem Takes.outcome_of_beyond {outcome : EStateM.Result IoError SparseWriter Unit}
    (takes : Takes archive destination able files offered outcome)
    (beyond : payloadLength files < offered.length) :
    if able then
      ∃ failed, outcome = .error (.surplusData archive) failed ∧
        Holds destination files (offered.take (payloadLength files)) failed.tree
    else ∃ failed, outcome = .error .system failed := by
  cases takes with
  | refused failed unable =>
      rw [unable, if_neg Bool.false_ne_true]
      exact ⟨failed, rfl⟩
  | surplus failed isAble _ holds =>
      rw [if_pos isAble]
      exact ⟨failed, rfl, holds⟩
  | taken writer cuts =>
      have within := cuts.length_le
      omega

end Outcomes

/-- When all files have places of their own, a stream is cut exactly, whatever its pieces are,
unless the system refuses a file; and it does so only if one cannot be created after those before
it, as when a file would have to be a directory for another.

A single write takes a byte at least as long as a file is not full, and the end of the stream
completes the files, be it written by such calls or by pieces that are written as a whole.  What
the files have no room for is refused, and leaves them full. -/
theorem cuts_stream (archive : String) (destination : Location) (files : List ListedFile)
    (tree : FileTree) (apart : (files.mapIdx (target destination)).Nodup) :
    let initial := start archive destination files tree
    let able := creatable destination 0 files tree
    (∀ stream writer, Feeds initial stream writer →
      (∀ bytes,
        (∃ failed, write bytes writer = .error .system failed) ∧ able = false ∨
          if bytes ≠ [] ∧ stream.length = payloadLength files then
            ∃ failed, write bytes writer = .error (.surplusData archive) failed ∧
              Holds destination files stream failed.tree
          else
            ∃ taken next, write bytes writer = .ok taken next ∧ taken ≤ bytes.length ∧
              (bytes ≠ [] → 0 < taken)) ∧
      (stream.length = payloadLength files →
        Ends archive destination able files stream writer)) ∧
    (∀ pieces : List Bytes,
      (pieces.flatten.length = payloadLength files →
        (∃ failed, forM pieces writeAll initial = .error .system failed) ∧ able = false ∨
          ∃ writer, forM pieces writeAll initial = .ok () writer ∧
            Ends archive destination able files pieces.flatten writer) ∧
      (payloadLength files < pieces.flatten.length →
        if able then
          ∃ failed, forM pieces writeAll initial = .error (.surplusData archive) failed ∧
            Holds destination files (pieces.flatten.take (payloadLength files)) failed.tree
        else ∃ failed, forM pieces writeAll initial = .error .system failed)) ∧
    (IoError.surplusData archive).kind = .invalidData ∧
    (IoError.surplusData archive).message = archive ++ ": data runs past the declared files" := by
  intro initial able
  refine ⟨?_, ?_, rfl, rfl⟩
  · intro stream writer run
    have cuts := run.cuts apart
    exact ⟨fun bytes => (write_writes apart bytes cuts).outcome, cuts.ends apart⟩
  · intro pieces
    have takes := forM_takes apart pieces (start_cuts archive destination files tree)
    rw [List.nil_append] at takes
    exact ⟨takes.outcome_of_complete apart, takes.outcome_of_beyond⟩

/-- Files with empty ones at the start, in the middle and at the end, and one with a name that leads
out of its directory. -/
def scattered : List ListedFile :=
  [⟨"first.txt", 7, 0⟩, ⟨"a.txt", 0, 2⟩, ⟨"..\\outside.txt", 0, 1⟩, ⟨"sub\\middle.txt", 0, 0⟩,
    ⟨"sub\\b.txt", 0, 3⟩, ⟨"last.txt", 0, 0⟩]

theorem cuts_stream_scattered :
    (scattered.mapIdx (target ["out"])).Nodup ∧
      creatable ["out"] 0 scattered FileTree.empty = true ∧
      ∃ writer,
        forM [[1], [], [2, 3, 4], [5, 6]] writeAll
          (start "x.omod" ["out"] scattered FileTree.empty) = .ok () writer ∧
        (finish writer).1 = .ok (safeFiles scattered) ∧
        Holds ["out"] scattered [1, 2, 3, 4, 5, 6] (finish writer).2.tree := by
  have apart : (scattered.mapIdx (target ["out"])).Nodup := by decide
  have able : creatable ["out"] 0 scattered FileTree.empty = true := by decide +kernel
  obtain ⟨-, inPieces, -⟩ := cuts_stream "x.omod" ["out"] scattered FileTree.empty apart
  rw [able] at inPieces
  obtain ⟨whole, -⟩ := inPieces [[1], [], [2, 3, 4], [5, 6]]
  rcases whole rfl with ⟨-, unable⟩ | ⟨writer, written, ends⟩
  · cases unable
  · rw [Ends, if_pos rfl] at ends
    exact ⟨apart, able, writer, written, ends⟩

end SparseWriter
end Omod
end GameArchive
