import GameArchive.Proofs.Omod.Slicing

/-!
# Files that share a place

Two files of a list may have the same place.  The later one then replaces the earlier one, so that
in the end every place holds the part of the payload that belongs to the last file written there.
Nothing is assumed of the list, and the payload may end too early.
-/

namespace GameArchive
namespace Omod
namespace SparseWriter

/-- No later file of a list is written to the place of the file at an index. -/
def IsLastAt (destination : Location) (files : List ListedFile) (index : Nat)
    (file : ListedFile) : Prop :=
  ∀ later other, index < later → files[later]? = some other →
    target destination later other ≠ target destination index file

/-- Every place holds the part of a stream that belongs to the last file written there. -/
def HoldsLast (destination : Location) (files : List ListedFile) (stream : Bytes)
    (tree : FileTree) : Prop :=
  ∀ index file, files[index]? = some file → IsLastAt destination files index file →
    tree.contents? (target destination index file) =
      some (stream.window (payloadLength (files.take index)) file.length)

/-- Every place of a file is that of a last one. -/
theorem exists_isLastAt (destination : Location) {files : List ListedFile} {index : Nat}
    {file : ListedFile} (there : files[index]? = some file) :
    ∃ last latest, files[last]? = some latest ∧ IsLastAt destination files last latest ∧
      target destination last latest = target destination index file := by
  by_cases isLast : IsLastAt destination files index file
  · exact ⟨index, file, there, isLast, rfl⟩
  · simp only [IsLastAt, Classical.not_forall, ne_eq, Classical.not_not] at isLast
    obtain ⟨later, other, behind, otherThere, same⟩ := isLast
    have within := (List.getElem?_eq_some_iff.mp otherThere).1
    obtain ⟨last, latest, lastThere, lastIsLast, sameLast⟩ :=
      exists_isLastAt destination otherThere
    exact ⟨last, latest, lastThere, lastIsLast, sameLast.trans same⟩
termination_by files.length - index

/-- The writer has created some files of a list, those before the others that wait. -/
structure Lays (destination : Location) (opened waiting : List ListedFile) (stream : Bytes)
    (writer : SparseWriter) : Prop where
  sameDestination : writer.destination = destination
  pending : writer.pending = numbered opened.length waiting
  written : writer.written = safeFiles opened
  holds : HoldsLast destination opened stream writer.tree

section Lays

variable {destination : Location} {opened waiting files : List ListedFile} {file : ListedFile}
  {stream : Bytes} {writer next : SparseWriter}

theorem IsLastAt.before {index : Nat} {other : ListedFile}
    (isLast : IsLastAt destination (opened ++ [file]) index other)
    (before : index < opened.length) :
    target destination opened.length file ≠ target destination index other ∧
      IsLastAt destination opened index other := by
  refine ⟨isLast _ _ before List.getElem?_concat_length, ?_⟩
  intro later another behind there
  apply isLast later another behind
  rw [List.getElem?_append_left (List.getElem?_eq_some_iff.mp there).1, there]

/-- A created file replaces what stood at its place. -/
theorem Lays.note {created : SparseWriter}
    (lays : Lays destination opened (file :: waiting) stream writer)
    (short : stream.length ≤ payloadLength opened)
    (succeeded : create (target destination opened.length file)
      { writer with pending := numbered (opened.length + 1) waiting } = .ok () created) :
    Lays destination (opened ++ [file]) waiting stream (created.note opened.length file) := by
  obtain ⟨here, elsewhere⟩ := FileTree.createFile_ok (createFile_of_create_ok succeeded)
  constructor
  · rw [note_eq, create_ok succeeded]
    exact lays.sameDestination
  · rw [note_eq, create_ok succeeded, List.length_append, List.length_singleton]
  · rw [safeFiles, List.filter_append, List.map_append, ← safeFiles, ← lays.written,
      SparseWriter.note, create_ok succeeded]
    by_cases safe : Path.isSafe file.name
    · simp [safe, targetPath]
    · simp [safe]
  · rw [note_eq]
    intro index other there isLast
    rcases getElem?_concat_eq_some there with ⟨rfl, rfl⟩ | ⟨before, inOpened⟩
    · rw [here, List.take_left, Bytes.window_end _ _ short]
    · obtain ⟨different, stillLast⟩ := isLast.before before
      rw [List.take_append_of_le_length (Nat.le_of_lt before)]
      exact elsewhere _ _ different.symm (lays.holds index other inOpened stillLast)

theorem Lays.append {bytes : Bytes}
    (lays : Lays destination (opened ++ [file]) waiting stream writer)
    (before : payloadLength opened ≤ stream.length)
    (room : stream.length + bytes.length ≤ payloadLength opened + file.length)
    (current : Option OpenFile) :
    Lays destination (opened ++ [file]) waiting (stream ++ bytes)
      { writer with
        tree := writer.tree.append (target destination opened.length file) bytes, current } := by
  refine ⟨lays.sameDestination, lays.pending, lays.written, ?_⟩
  intro index other there isLast
  have held := lays.holds index other there isLast
  rcases getElem?_concat_eq_some there with ⟨rfl, rfl⟩ | ⟨earlier, inOpened⟩
  · rw [FileTree.contents?_append_self held, List.take_left,
      Bytes.window_append_beyond _ _ before room]
  · have within := Nat.le_trans (payloadLength_take_add_le inOpened) before
    rw [FileTree.contents?_append_of_ne _ (isLast.before earlier).1.symm, held,
      List.take_append_of_le_length (Nat.le_of_lt earlier), Bytes.window_append_left _ _ within]

/-- The creation of files goes on with those that wait, and opens the last that it creates or
none. -/
theorem Lays.openNext {found : Bool} (lays : Lays destination opened waiting stream writer)
    (short : stream.length ≤ payloadLength opened)
    (succeeded : openNext writer.pending writer = .ok found next) :
    ∃ created left, waiting = created ++ left ∧
      Lays destination (opened ++ created) left stream next ∧ (waiting ≠ [] → created ≠ []) ∧
      (next.current = writer.current ∨ ∃ front file, opened ++ created = front ++ [file] ∧
        next.current = some ⟨file, target destination front.length file, file.length⟩) := by
  induction waiting generalizing opened writer with
  | nil =>
      rw [lays.pending] at succeeded
      cases succeeded
      exact ⟨[], [], rfl, by simpa using lays, id, .inl rfl⟩
  | cons file waiting ih =>
      have sameDestination := lays.sameDestination
      subst sameDestination
      rw [lays.pending, numbered, openNext_cons_eq] at succeeded
      cases outcome : create (target writer.destination opened.length file)
          { writer with pending := numbered (opened.length + 1) waiting } with
      | error failure failed =>
          rw [outcome] at succeeded
          cases succeeded
      | ok _ created =>
          rw [outcome] at succeeded
          have further := lays.note short outcome
          have sameCurrent : (created.note opened.length file).current = writer.current := by
            rw [note_eq, create_ok outcome]
          simp only at succeeded
          split at succeeded
          -- An empty file is complete as it is, and the creation goes on.
          · have longer : stream.length ≤ payloadLength (opened ++ [file]) := by
              rw [payloadLength_append]
              omega
            have pending := further.pending
            rw [List.length_append, List.length_singleton] at pending
            rw [← pending] at succeeded
            obtain ⟨others, left, split, now, -, current⟩ := ih further longer succeeded
            rw [sameCurrent] at current
            rw [List.append_assoc] at now current
            exact ⟨file :: others, left, by rw [split]; rfl, now, by simp, current⟩
          · cases succeeded
            exact ⟨[file], waiting, rfl, ⟨further.sameDestination, further.pending,
              further.written, further.holds⟩, by simp, .inr ⟨opened, file, rfl, rfl⟩⟩

theorem Lays.map_snd_pending (lays : Lays destination opened waiting stream writer) :
    writer.pending.map Prod.snd = waiting := by
  rw [lays.pending, numbered_map_snd]

/-- The creation of the files that are left creates all of them when it succeeds. -/
theorem Lays.createRest {fuel : Nat} (lays : Lays destination opened waiting stream writer)
    (short : stream.length ≤ payloadLength opened) (enough : waiting.length ≤ fuel)
    (succeeded : createRest fuel writer = (.ok (), next)) :
    Lays destination (opened ++ waiting) [] stream next := by
  induction fuel generalizing opened waiting writer with
  | zero =>
      have nothing : waiting = [] := List.eq_nil_of_length_eq_zero (by omega)
      subst nothing
      cases succeeded
      rwa [List.append_nil]
  | succ fuel ih =>
      cases waiting with
      | nil =>
          rw [createRest_of_nil _ lays.pending] at succeeded
          cases succeeded
          rwa [List.append_nil]
      | cons file waiting =>
          have front : writer.pending = (opened.length, file) :: numbered _ waiting := lays.pending
          rw [SparseWriter.createRest, front] at succeeded
          simp only at succeeded
          split at succeeded
          · cases succeeded
          · rw [← front] at succeeded
            split at succeeded
            · next opensNext =>
                obtain ⟨created, left, split, now, some, -⟩ := lays.openNext short opensNext
                have createsOne := List.length_pos_iff.mpr (some (by simp))
                have fewer : left.length ≤ fuel := by
                  have lengths := congrArg List.length split
                  rw [List.length_append] at lengths
                  omega
                have longer : stream.length ≤ payloadLength (opened ++ created) := by
                  rw [payloadLength_append]
                  omega
                have rest := ih now longer fewer succeeded
                rwa [List.append_assoc, ← split] at rest
            · cases succeeded

end Lays

/-- A stream is laid down among the files so far, and the open file, if there is one, is the last
that was created. -/
structure Laid (destination : Location) (files : List ListedFile) (stream : Bytes)
    (writer : SparseWriter) : Prop where
  stands : Stands files stream.length writer
  lays : ∃ opened waiting, files = opened ++ waiting ∧
    Lays destination opened waiting stream writer ∧
    ∀ filling, writer.current = some filling →
      ∃ front, opened = front ++ [filling.file] ∧
        filling.location = target destination front.length filling.file

section Laid

variable {destination : Location} {files : List ListedFile} {tree : FileTree}
  {stream bytes : Bytes} {writer next : SparseWriter}

/-- Between two files the stream ends where the created files do. -/
theorem Lays.length_eq {opened waiting : List ListedFile}
    (lays : Lays destination opened waiting stream writer)
    (stands : Stands (opened ++ waiting) stream.length writer) (closed : writer.current = none) :
    stream.length = payloadLength opened := by
  cases stands with
  | between before behind split full boundary left current =>
      rw [lays.map_snd_pending] at left
      subst left
      rw [List.append_cancel_right split, full]
  | inside front behind filling split lengths someLeft partly left current =>
      rw [closed] at current
      cases current

/-- The file that takes the next byte is the last that was created. -/
theorem Laid.currentFile {filling : OpenFile} (laid : Laid destination files stream writer)
    (chosen : currentFile writer = .ok filling next) :
    ∃ front left, files = front ++ filling.file :: left ∧
      Lays destination (front ++ [filling.file]) left stream next ∧
      filling.location = target destination front.length filling.file := by
  obtain ⟨stands, opened, waiting, rfl, lays, place⟩ := laid
  cases current : writer.current with
  | some opens =>
      rw [currentFile_of_some current] at chosen
      cases chosen
      obtain ⟨front, rfl, location⟩ := place _ current
      exact ⟨front, waiting, by simp, lays, location⟩
  | none =>
      have short := Nat.le_of_eq (lays.length_eq stands current)
      rw [currentFile_of_none current] at chosen
      split at chosen
      · cases chosen
      · next found middle opensNext =>
          obtain ⟨created, left, rfl, now, -, unchanged | ⟨front, file, last, opens⟩⟩ :=
            lays.openNext short opensNext
          · rw [unchanged, current] at chosen
            cases chosen
          · rw [opens] at chosen
            cases chosen
            rw [last] at now
            exact ⟨front, left, by rw [← List.append_assoc, last]; simp, now, rfl⟩

theorem Laid.write {taken : Nat} (laid : Laid destination files stream writer)
    (written : write bytes writer = .ok taken next) :
    Laid destination files (stream ++ bytes.take taken) next := by
  obtain ⟨-, stands, takesFew, -⟩ := write_stands laid.stands written
  have counted : (stream ++ bytes.take taken).length = stream.length + taken := by
    rw [List.length_append, List.length_take_of_le takesFew]
  refine ⟨by rwa [counted], ?_⟩
  by_cases nothing : bytes = []
  · subst nothing
    cases written
    rw [List.take_nil, List.append_nil]
    exact laid.lays
  · rw [write_of_ne_nil nothing] at written
    cases chosen : SparseWriter.currentFile writer with
    | error failure failed =>
        rw [chosen] at written
        cases written
    | ok filling middle =>
        rw [chosen] at written
        cases written
        obtain ⟨front, left, split, lays, location⟩ := laid.currentFile chosen
        obtain ⟨-, -, -, filled, sameSplit, before, lengths⟩ := currentFile_ok laid.stands chosen
        have same : filled = front := by
          rw [lays.map_snd_pending, split] at sameSplit
          exact (List.append_cancel_right sameSplit).symm
        subst same
        have takes : bytes.take (bytes.take filling.remaining).length =
            bytes.take filling.remaining := by
          rw [List.length_take, ← List.take_eq_take_min]
        have room : stream.length + (bytes.take filling.remaining).length ≤
            payloadLength filled + filling.file.length := by
          rw [List.length_take]
          omega
        rw [takes, location]
        refine ⟨filled ++ [filling.file], left, by simp [split],
          lays.append before room _, ?_⟩
        intro further opens
        simp only at opens
        split at opens
        · cases opens
        · cases opens
          exact ⟨filled, rfl, rfl⟩

theorem Feeds.laid {archive : String}
    (run : Feeds (SparseWriter.start archive destination files tree) stream writer) :
    Laid destination files stream writer := by
  induction run with
  | start =>
      refine ⟨start_stands archive destination files tree, [], files, rfl,
        ⟨rfl, rfl, rfl, fun _ _ there => by simp at there⟩, ?_⟩
      intro filling opens
      cases opens
  | write bytes before written ih => exact ih.write written

/-- Whatever the list, a writing that ends well reports the files with safe names, and leaves at
every place the part of the stream that belongs to the last file written there. -/
theorem Laid.finish {reported : List WrittenFile} (laid : Laid destination files stream writer)
    (finished : finish writer = (.ok reported, next)) :
    reported = safeFiles files ∧ HoldsLast destination files stream next.tree := by
  obtain ⟨stands, opened, waiting, rfl, lays, -⟩ := laid
  unfold SparseWriter.finish at finished
  cases current : writer.current with
  | some filling =>
      rw [current] at finished
      cases finished
  | none =>
      have short := Nat.le_of_eq (lays.length_eq stands current)
      have enough : waiting.length ≤ writer.pending.length := by
        have lengths := congrArg List.length lays.map_snd_pending
        rw [List.length_map] at lengths
        exact Nat.le_of_eq lengths.symm
      rw [current] at finished
      cases outcome : SparseWriter.createRest writer.pending.length writer with
      | mk result final =>
          rw [outcome] at finished
          cases result with
          | error failure => cases finished
          | ok _ =>
              cases finished
              have all := lays.createRest short enough outcome
              exact ⟨all.written, by simpa using all.holds⟩

end Laid

end SparseWriter
end Omod
end GameArchive
