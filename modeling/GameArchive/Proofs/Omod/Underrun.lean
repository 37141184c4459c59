import GameArchive.Omod.SparseWriter
import GameArchive.Proofs.Outcome

/-!
# Payloads that end too early

A payload that has fewer bytes than its list declares leaves files that are not full, and the
end of the writing should report the first of them.  This module proves when it does.

The bytes may end inside a file, right before a file that is not empty, or right before an empty
one.  In the first two cases the right file is reported.  In the last case the step that creates
the empty files also opens the next file that is not empty, and passes over it without a look at
its length: a later file is reported, or none at all.
-/

namespace GameArchive
namespace Omod

/-- The number of bytes that fill the files of a list. -/
def payloadLength : List ListedFile → Nat
  | [] => 0
  | file :: files => file.length + payloadLength files

/-- The first file of a list that is not full when some bytes were delivered.  An empty file is
always full. -/
def firstUnfilled? : (delivered : Nat) → List ListedFile → Option ListedFile
  | _, [] => none
  | delivered, file :: files =>
      if file.length ≤ delivered then firstUnfilled? (delivered - file.length) files
      else some file

/-- The files that are left when the files up to the one with the last delivered byte are taken
away, as far as they are full. -/
def awaiting : (delivered : Nat) → List ListedFile → List ListedFile
  | _, [] => []
  | delivered, file :: files =>
      if delivered = 0 ∨ delivered < file.length then file :: files
      else awaiting (delivered - file.length) files

/-- Whether some files begin with an empty one. -/
def beginsEmpty : List ListedFile → Bool
  | [] => false
  | file :: _ => file.length == 0

/-- The file that the end of the writing reports when the given files are not yet created.
`passing` tells that an empty file was created before, so that the next file that is not empty is
passed over. -/
def reported? : (passing : Bool) → List ListedFile → Option ListedFile
  | _, [] => none
  | passing, file :: files =>
      if file.length = 0 then reported? true files
      else if passing then reported? false files
      else some file

@[simp] theorem payloadLength_append (first second : List ListedFile) :
    payloadLength (first ++ second) = payloadLength first + payloadLength second := by
  induction first with
  | nil => simp [payloadLength]
  | cons file files ih =>
      rw [List.cons_append, payloadLength, payloadLength, ih]
      omega

theorem payloadLength_eq_zero {files : List ListedFile}
    (empty : ∀ file ∈ files, file.length = 0) : payloadLength files = 0 := by
  induction files with
  | nil => rfl
  | cons file files ih =>
      rw [payloadLength, empty file (by simp),
        ih (fun other member => empty other (by simp [member]))]

theorem firstUnfilled?_isSome_iff (delivered : Nat) (files : List ListedFile) :
    (firstUnfilled? delivered files).isSome ↔ delivered < payloadLength files := by
  induction files generalizing delivered with
  | nil => simp [firstUnfilled?, payloadLength]
  | cons file files ih =>
      rw [firstUnfilled?, payloadLength]
      split
      · next full =>
          rw [ih]
          omega
      · next partly =>
          simp only [Option.isSome_some, true_iff]
          omega

@[simp] theorem awaiting_zero (files : List ListedFile) : awaiting 0 files = files := by
  cases files <;> simp [awaiting]

theorem awaiting_append {filled : List ListedFile} {delivered : Nat}
    (files : List ListedFile) (beyond : payloadLength filled < delivered) :
    awaiting delivered (filled ++ files) = awaiting (delivered - payloadLength filled) files := by
  induction filled generalizing delivered with
  | nil => simp [payloadLength]
  | cons file filled ih =>
      rw [payloadLength] at beyond
      have notHere : ¬ (delivered = 0 ∨ delivered < file.length) := by omega
      have rest : payloadLength filled < delivered - file.length := by omega
      rw [List.cons_append, awaiting, if_neg notHere, ih rest, payloadLength]
      congr 1
      omega

/-- Nothing of the files that still wait, their empty ones aside, is full. -/
theorem firstUnfilled?_awaiting (delivered : Nat) (files : List ListedFile) :
    firstUnfilled? 0 (awaiting delivered files) = firstUnfilled? delivered files := by
  induction files generalizing delivered with
  | nil => rfl
  | cons file files ih =>
      rw [awaiting]
      split
      · next here =>
          rw [firstUnfilled?, firstUnfilled?]
          rcases here with rfl | partly
          · rfl
          · rw [if_neg (by omega), if_neg (by omega)]
      · next full =>
          rw [ih, firstUnfilled?, if_pos (by omega)]

namespace SparseWriter

/-- The writers that a series of successful writes leads to, with the number of bytes that they
took. -/
inductive Delivers (initial : SparseWriter) : (delivered : Nat) → SparseWriter → Prop where
  | start : Delivers initial 0 initial
  | write {delivered taken : Nat} {writer next : SparseWriter} (bytes : Bytes) :
      Delivers initial delivered writer → write bytes writer = .ok taken next →
        Delivers initial (delivered + taken) next

theorem create_ok {location : Location} {writer next : SparseWriter}
    (created : create location writer = .ok () next) :
    next = { writer with tree := next.tree } := by
  unfold create at created
  simp only at created
  split at created
  · cases created
    rfl
  · cases created

theorem create_error {location : Location} {writer next : SparseWriter} {failure : IoError}
    (failed : create location writer = .error failure next) :
    next = { writer with tree := next.tree } := by
  unfold create at failed
  simp only at failed
  split at failed
  · cases failed
  · cases failed
    rfl

/-- Where the file at an index is written. -/
def target (destination : Location) (index : Nat) (file : ListedFile) : Location :=
  Location.resolve destination (targetPath index file)

/-- The writer after a file was created, which is reported if its name is safe. -/
def note (index : Nat) (file : ListedFile) (writer : SparseWriter) : SparseWriter :=
  if Path.isSafe file.name then
    { writer with
      written := writer.written ++ [⟨Path.toArchive file.name, targetPath index file⟩] }
  else writer

theorem note_eq (index : Nat) (file : ListedFile) (writer : SparseWriter) :
    writer.note index file = { writer with written := (writer.note index file).written } := by
  rw [note]
  split <;> rfl

/-- One step of the creation of files. -/
theorem openNext_cons_eq (index : Nat) (file : ListedFile) (rest : List (Nat × ListedFile))
    (writer : SparseWriter) :
    openNext ((index, file) :: rest) writer =
      match create (target writer.destination index file) { writer with pending := rest } with
      | .error failure failed => .error failure failed
      | .ok _ created =>
          if file.length = 0 then openNext rest (created.note index file)
          else
            .ok true { created.note index file with
              current := some ⟨file, target writer.destination index file, file.length⟩ } := by
  rw [openNext]
  simp only [Outcome.get_bind, Outcome.modify_bind]
  rw [Outcome.state_bind, ← target]
  cases create (target writer.destination index file) { writer with pending := rest } with
  | error failure failed => rfl
  | ok _ created =>
      unfold note
      by_cases safe : Path.isSafe file.name
      · simp only [if_pos safe]
        split <;> rfl
      · simp only [if_neg safe]
        split <;> rfl

/-- One step of the creation of files: the file at the front is created, and of the other fields
only the list of written files changes. -/
theorem openNext_cons (index : Nat) (file : ListedFile) (rest : List (Nat × ListedFile))
    (writer : SparseWriter) :
    (∃ failure failed, openNext ((index, file) :: rest) writer = .error failure failed ∧
        failed.archive = writer.archive) ∨
      ∃ created : SparseWriter, ∃ location, created.archive = writer.archive ∧
        created.pending = rest ∧ created.current = writer.current ∧
        openNext ((index, file) :: rest) writer =
          if file.length = 0 then openNext rest created
          else .ok true { created with current := some ⟨file, location, file.length⟩ } := by
  rw [openNext_cons_eq]
  cases outcome : create (target writer.destination index file)
      { writer with pending := rest } with
  | error failure failed =>
      left
      refine ⟨failure, failed, rfl, ?_⟩
      rw [create_error outcome]
  | ok _ created =>
      right
      refine ⟨created.note index file, target writer.destination index file, ?_, ?_, ?_, rfl⟩
      all_goals rw [note_eq, create_ok outcome]

theorem openNext_error {pending : List (Nat × ListedFile)} {writer next : SparseWriter}
    {failure : IoError} (failed : openNext pending writer = .error failure next) :
    next.archive = writer.archive := by
  induction pending generalizing writer with
  | nil => cases failed
  | cons entry pending ih =>
      obtain ⟨index, file⟩ := entry
      rcases openNext_cons index file pending writer with
        ⟨found, after, opened, kept⟩ | ⟨created, location, kept, -, -, opened⟩
      · rw [opened] at failed
        cases failed
        exact kept
      · rw [opened] at failed
        split at failed
        · rw [ih failed, kept]
        · cases failed

/-- What the creation of files leaves open: the next file that is not empty, if there is one. -/
theorem openNext_ok {pending : List (Nat × ListedFile)} {writer next : SparseWriter}
    {found : Bool} (held : writer.pending = pending)
    (opened : openNext pending writer = .ok found next) :
    next.archive = writer.archive ∧
      ((∃ empties file location,
          pending.map Prod.snd = empties ++ file :: next.pending.map Prod.snd ∧
          (∀ other ∈ empties, other.length = 0) ∧ file.length ≠ 0 ∧
          next.current = some ⟨file, location, file.length⟩) ∨
        ((∀ file ∈ pending.map Prod.snd, file.length = 0) ∧ next.pending = [] ∧
          next.current = writer.current)) := by
  induction pending generalizing writer with
  | nil =>
      cases opened
      exact ⟨rfl, Or.inr ⟨by simp, held, rfl⟩⟩
  | cons entry pending ih =>
      obtain ⟨index, file⟩ := entry
      rcases openNext_cons index file pending writer with
        ⟨failure, after, failed, -⟩ | ⟨created, location, kept, left, unchanged, step⟩
      · rw [failed] at opened
        cases opened
      · rw [step] at opened
        split at opened
        · next empty =>
            obtain ⟨sameArchive, furtherFile | allEmpty⟩ := ih left opened
            · obtain ⟨empties, further, place, split, emptyFiles, others⟩ := furtherFile
              refine ⟨sameArchive.trans kept, Or.inl
                ⟨file :: empties, further, place, ?_, ?_, others⟩⟩
              · rw [List.map_cons, split, List.cons_append]
              · intro other member
                rcases List.mem_cons.mp member with rfl | later
                · exact empty
                · exact emptyFiles other later
            · obtain ⟨emptyFiles, nothing, same⟩ := allEmpty
              refine ⟨sameArchive.trans kept, Or.inr ⟨?_, nothing, same.trans unchanged⟩⟩
              intro other member
              rw [List.map_cons] at member
              rcases List.mem_cons.mp member with rfl | later
              · exact empty
              · exact emptyFiles other later
        · next notEmpty =>
            cases opened
            refine ⟨kept, Or.inl ⟨[], file, location, ?_, by simp, notEmpty, rfl⟩⟩
            rw [List.map_cons, List.nil_append, left]

/-- Where the last delivered byte stands: at the end of a file with nothing open, or inside the
file that is open. -/
inductive Stands (files : List ListedFile) (delivered : Nat) (writer : SparseWriter) : Prop where
  | between (opened waiting : List ListedFile) :
      files = opened ++ waiting → payloadLength opened = delivered →
        awaiting delivered files = waiting → writer.pending.map Prod.snd = waiting →
        writer.current = none → Stands files delivered writer
  | inside (filled waiting : List ListedFile) (filling : OpenFile) :
      files = filled ++ filling.file :: waiting →
        payloadLength filled + filling.file.length = delivered + filling.remaining →
        0 < filling.remaining → filling.remaining < filling.file.length →
        writer.pending.map Prod.snd = waiting →
        writer.current = some filling → Stands files delivered writer

theorem numbered_map_snd (index : Nat) (files : List ListedFile) :
    (numbered index files).map Prod.snd = files := by
  induction files generalizing index with
  | nil => rfl
  | cons file files ih => rw [numbered, List.map_cons, ih]

theorem start_stands (archive : String) (destination : Location) (files : List ListedFile)
    (tree : FileTree) : Stands files 0 (start archive destination files tree) :=
  Stands.between [] files rfl rfl (awaiting_zero files) (numbered_map_snd 0 files) rfl

theorem currentFile_of_some {writer : SparseWriter} {filling : OpenFile}
    (current : writer.current = some filling) :
    currentFile writer = .ok filling writer := by
  unfold currentFile
  rw [Outcome.get_bind, current]
  rfl

theorem currentFile_of_none {writer : SparseWriter} (current : writer.current = none) :
    currentFile writer =
      match openNext writer.pending writer with
      | .error failure failed => .error failure failed
      | .ok _ opened =>
          match opened.current with
          | some filling => .ok filling opened
          | none => .error (.surplusData opened.archive) opened := by
  unfold currentFile
  rw [Outcome.get_bind, current]
  simp only
  rw [Outcome.get_bind, Outcome.state_bind]
  cases outcome : openNext writer.pending writer with
  | error failure failed => rfl
  | ok found opened =>
      simp only
      rw [Outcome.get_bind]
      cases opened.current <;> rfl

/-- The file that takes the next byte is the first that is not full, and it is open then. -/
theorem currentFile_ok {files : List ListedFile} {delivered : Nat} {writer next : SparseWriter}
    {filling : OpenFile} (stands : Stands files delivered writer)
    (chosen : currentFile writer = .ok filling next) :
    next.archive = writer.archive ∧ next.current = some filling ∧ 0 < filling.remaining ∧
      ∃ filled, files = filled ++ filling.file :: next.pending.map Prod.snd ∧
        payloadLength filled ≤ delivered ∧
        payloadLength filled + filling.file.length = delivered + filling.remaining := by
  cases stands with
  | inside filled waiting file split lengths someLeft partly left current =>
      rw [currentFile_of_some current] at chosen
      cases chosen
      refine ⟨rfl, current, someLeft, filled, ?_, ?_, lengths⟩
      · rw [left, split]
      · omega
  | between opened waiting split full boundary left current =>
      rw [currentFile_of_none current] at chosen
      cases outcome : openNext writer.pending writer with
      | error failure failed =>
          rw [outcome] at chosen
          cases chosen
      | ok found after =>
          rw [outcome] at chosen
          simp only at chosen
          obtain ⟨sameArchive, furtherFile | ⟨-, -, same⟩⟩ := openNext_ok rfl outcome
          · obtain ⟨empties, file, location, front, emptyFiles, notEmpty, nowOpen⟩ := furtherFile
            rw [nowOpen] at chosen
            cases chosen
            have noBytes : payloadLength empties = 0 := payloadLength_eq_zero emptyFiles
            have someLeft : 0 < file.length := by omega
            refine ⟨sameArchive, nowOpen, someLeft, opened ++ empties, ?_, ?_, ?_⟩
            · rw [split, ← left, front, List.append_assoc]
            · rw [payloadLength_append]
              omega
            · rw [payloadLength_append, full, noBytes]
              rfl
          · rw [same, current] at chosen
            cases chosen

/-- A write keeps the invariant, and counts the bytes it takes. -/
theorem write_stands {files : List ListedFile} {delivered taken : Nat} {bytes : Bytes}
    {writer next : SparseWriter} (stands : Stands files delivered writer)
    (written : write bytes writer = .ok taken next) :
    next.archive = writer.archive ∧ Stands files (delivered + taken) next ∧
      taken ≤ bytes.length ∧ (bytes ≠ [] → 0 < taken) := by
  unfold write at written
  split at written
  · next nothing =>
      cases written
      exact ⟨rfl, stands, Nat.zero_le _,
        fun something => absurd (List.isEmpty_iff.mp nothing) something⟩
  · next notEmpty =>
      rw [Outcome.state_bind_eq_ok_iff] at written
      obtain ⟨filling, middle, chosen, rest⟩ := written
      obtain ⟨sameArchive, current, someLeft, filled, split, before, lengths⟩ :=
        currentFile_ok stands chosen
      cases rest
      have takes : (bytes.take filling.remaining).length ≤ filling.remaining := by
        rw [List.length_take]
        omega
      have takesOne : 0 < (bytes.take filling.remaining).length := by
        have : 0 < bytes.length := by
          cases bytes with
          | nil => exact absurd rfl notEmpty
          | cons byte bytes => simp
        rw [List.length_take]
        omega
      have takesFew : (bytes.take filling.remaining).length ≤ bytes.length := by
        rw [List.length_take]
        omega
      refine ⟨sameArchive, ?_, takesFew, fun _ => takesOne⟩
      by_cases full : filling.remaining - (bytes.take filling.remaining).length = 0
      · refine Stands.between (filled ++ [filling.file]) (middle.pending.map Prod.snd)
          ?_ ?_ ?_ rfl ?_
        · rw [split]
          simp
        · rw [payloadLength_append, payloadLength, payloadLength]
          omega
        · rw [split, awaiting_append _ (by omega), awaiting, if_neg (by omega)]
          have nothing : delivered + (bytes.take filling.remaining).length - payloadLength filled -
              filling.file.length = 0 := by
            omega
          rw [nothing, awaiting_zero]
        · exact if_pos full
      · refine Stands.inside filled (middle.pending.map Prod.snd)
          { filling with remaining := filling.remaining - (bytes.take filling.remaining).length }
          split ?_ ?_ ?_ rfl ?_
        · simp only
          omega
        · simp only
          omega
        · simp only
          omega
        · exact if_neg full

theorem Delivers.stands {archive : String} {destination : Location} {files : List ListedFile}
    {tree : FileTree} {delivered : Nat} {writer : SparseWriter}
    (run : Delivers (SparseWriter.start archive destination files tree) delivered writer) :
    writer.archive = archive ∧ Stands files delivered writer := by
  induction run with
  | start => exact ⟨rfl, start_stands archive destination files tree⟩
  | write bytes before written ih =>
      obtain ⟨sameArchive, stands, -⟩ := write_stands ih.2 written
      exact ⟨sameArchive.trans ih.1, stands⟩

theorem Delivers.writeWithin {archive : String} {destination : Location}
    {files : List ListedFile} {tree : FileTree} {delivered fuel : Nat} {bytes : Bytes}
    {writer next : SparseWriter}
    (run : Delivers (SparseWriter.start archive destination files tree) delivered writer)
    (enough : bytes.length ≤ fuel) (written : writeWithin fuel bytes writer = .ok () next) :
    Delivers (SparseWriter.start archive destination files tree) (delivered + bytes.length)
      next := by
  induction fuel generalizing delivered bytes writer with
  | zero =>
      have nothing : bytes = [] := List.eq_nil_of_length_eq_zero (by omega)
      cases written
      rw [nothing]
      exact run
  | succ fuel ih =>
      rw [SparseWriter.writeWithin] at written
      split at written
      · next nothing =>
          cases written
          rw [List.isEmpty_iff.mp nothing]
          exact run
      · next something =>
          rw [Outcome.state_bind_eq_ok_iff] at written
          obtain ⟨taken, middle, first, others⟩ := written
          obtain ⟨-, -, takesFew, takesOne⟩ := write_stands run.stands.2 first
          have takesByte : 0 < taken := takesOne (by simpa using something)
          have further := ih (run.write bytes first) (by rw [List.length_drop]; omega) others
          have total : delivered + taken + (bytes.drop taken).length =
              delivered + bytes.length := by
            rw [List.length_drop]
            omega
          rw [← total]
          exact further

/-- Writing a whole piece is a series of writes that takes all of its bytes. -/
theorem Delivers.writeAll {archive : String} {destination : Location} {files : List ListedFile}
    {tree : FileTree} {delivered : Nat} {bytes : Bytes} {writer next : SparseWriter}
    (run : Delivers (SparseWriter.start archive destination files tree) delivered writer)
    (written : writeAll bytes writer = .ok () next) :
    Delivers (SparseWriter.start archive destination files tree) (delivered + bytes.length)
      next :=
  run.writeWithin (Nat.le_refl bytes.length) written

theorem reported?_of_beginsEmpty {files : List ListedFile} (empty : beginsEmpty files = true) :
    reported? false files = reported? true files := by
  cases files with
  | nil => rfl
  | cons file files =>
      have noLength : file.length = 0 := by simpa [beginsEmpty] using empty
      rw [reported?, reported?, if_pos noLength, if_pos noLength]

/-- Empty files and the next file that is not empty are passed over together. -/
theorem reported?_true_append {empties : List ListedFile} {file : ListedFile}
    {rest : List ListedFile} (empty : ∀ other ∈ empties, other.length = 0)
    (notEmpty : file.length ≠ 0) :
    reported? true (empties ++ file :: rest) = reported? false rest := by
  induction empties with
  | nil => rw [List.nil_append, reported?, if_neg notEmpty, if_pos rfl]
  | cons other empties ih =>
      rw [List.cons_append, reported?, if_pos (empty other (by simp))]
      exact ih (fun another member => empty another (by simp [member]))

theorem reported?_of_empty {files : List ListedFile} (passing : Bool)
    (empty : ∀ file ∈ files, file.length = 0) : reported? passing files = none := by
  induction files generalizing passing with
  | nil => rfl
  | cons file files ih =>
      rw [reported?, if_pos (empty file (by simp))]
      exact ih true (fun other member => empty other (by simp [member]))

theorem createRest_of_nil (fuel : Nat) {writer : SparseWriter} (nothing : writer.pending = []) :
    createRest fuel writer = (.ok (), writer) := by
  cases fuel with
  | zero => rfl
  | succ fuel => rw [createRest, nothing]

/-- The creation of the last files ends as `reported?` tells, unless an empty file cannot be
created. -/
theorem createRest_outcome {fuel : Nat} {writer : SparseWriter}
    (enough : writer.pending.length ≤ fuel) :
    (createRest fuel writer).1 =
        (match reported? false (writer.pending.map Prod.snd) with
          | some file => .error (.omodUnderrun writer.archive file.name)
          | none => .ok ()) ∨
      beginsEmpty (writer.pending.map Prod.snd) = true ∧
        ∃ failure, (createRest fuel writer).1 = .error (.io writer.archive failure) := by
  induction fuel generalizing writer with
  | zero =>
      have nothing : writer.pending = [] := List.eq_nil_of_length_eq_zero (by omega)
      left
      rw [nothing]
      rfl
  | succ fuel ih =>
      rw [createRest]
      cases waiting : writer.pending with
      | nil =>
          left
          rfl
      | cons entry rest =>
          obtain ⟨index, file⟩ := entry
          by_cases empty : file.length = 0
          · have firstEmpty : beginsEmpty (((index, file) :: rest).map Prod.snd) = true := by
              simp [beginsEmpty, empty]
            rw [reported?_of_beginsEmpty firstEmpty]
            simp only [empty, ne_eq, not_true_eq_false, if_false]
            cases outcome : openNext ((index, file) :: rest) writer with
            | error failure failed =>
                right
                refine ⟨firstEmpty, failure, ?_⟩
                simp only [openNext_error outcome]
            | ok found after =>
                obtain ⟨sameArchive, furtherFile | ⟨allEmpty, nothing, -⟩⟩ :=
                  openNext_ok waiting outcome
                · obtain ⟨empties, further, location, split, emptyFiles, notEmpty, -⟩ := furtherFile
                  have fewer : after.pending.length ≤ fuel := by
                    have lengths := congrArg List.length split
                    rw [List.length_append, List.length_map, List.length_cons, List.length_cons,
                      List.length_map] at lengths
                    rw [waiting, List.length_cons] at enough
                    omega
                  have skipped : reported? true (((index, file) :: rest).map Prod.snd) =
                      reported? false (after.pending.map Prod.snd) := by
                    rw [split, reported?_true_append emptyFiles notEmpty]
                  rw [skipped, ← sameArchive]
                  rcases ih fewer with agreed | ⟨-, failed⟩
                  · exact Or.inl agreed
                  · exact Or.inr ⟨firstEmpty, failed⟩
                · left
                  rw [reported?_of_empty true allEmpty]
                  simp only [createRest_of_nil fuel nothing]
          · left
            simp only [ne_eq, empty, not_false_eq_true, if_true]
            rw [List.map_cons, reported?, if_neg empty]
            rfl

/-- The writing ends as `reported?` tells of the files that wait, unless an empty file cannot be
created. -/
theorem finish_outcome {files : List ListedFile} {delivered : Nat} {writer : SparseWriter}
    (stands : Stands files delivered writer) :
    (match reported? false (awaiting delivered files) with
      | some file => (finish writer).1 = .error (.omodUnderrun writer.archive file.name)
      | none => ∃ written, (finish writer).1 = .ok written) ∨
      beginsEmpty (awaiting delivered files) = true ∧
        ∃ failure, (finish writer).1 = .error (.io writer.archive failure) := by
  cases stands with
  | inside filled waiting filling split lengths someLeft partly left current =>
      have notEmpty : filling.file.length ≠ 0 := by omega
      have waits : awaiting delivered files = filling.file :: waiting := by
        rw [split, awaiting_append _ (by omega), awaiting, if_pos (by omega)]
      left
      rw [waits, reported?, if_neg notEmpty]
      simp only [finish, current]
      rfl
  | between opened waiting split full boundary left current =>
      rw [boundary, ← left]
      unfold finish
      rw [current]
      rcases createRest_outcome (Nat.le_refl writer.pending.length) with
        agreed | ⟨firstEmpty, failure, failed⟩
      · left
        cases found : reported? false (writer.pending.map Prod.snd) with
        | none =>
            rw [found] at agreed
            simp only [agreed]
            exact ⟨_, rfl⟩
        | some file =>
            rw [found] at agreed
            simp only [agreed]
            rfl
      · right
        refine ⟨firstEmpty, failure, ?_⟩
        simp only [failed]
        rfl

/-- A list whose first file is not empty is reported by that file. -/
theorem reported?_eq_firstUnfilled? {files : List ListedFile}
    (notEmpty : beginsEmpty files = false) : reported? false files = firstUnfilled? 0 files := by
  cases files with
  | nil => rfl
  | cons file files =>
      have someLength : file.length ≠ 0 := by simpa [beginsEmpty] using notEmpty
      have positive : ¬ file.length ≤ 0 := by omega
      rw [reported?, if_neg someLength, if_neg Bool.false_ne_true, firstUnfilled?,
        if_neg positive]

/-- When fewer bytes were delivered than the files hold, the end of the writing reports the first
file that is not full exactly if no empty file waits in front, or the file reported after those
that are passed over bears its name.  It succeeds exactly if an empty file waits in front and
no file is left to report. -/
theorem finish_of_short {archive : String} {destination : Location} {files : List ListedFile}
    {tree : FileTree} {delivered : Nat} {writer : SparseWriter}
    (run : Delivers (SparseWriter.start archive destination files tree) delivered writer)
    (short : delivered < payloadLength files) :
    ∃ missing, firstUnfilled? delivered files = some missing ∧
      ((finish writer).1 = .error (.omodUnderrun archive missing.name) ↔
        beginsEmpty (awaiting delivered files) = false ∨
          (∀ failure, (finish writer).1 ≠ .error (.io archive failure)) ∧
            (reported? false (awaiting delivered files)).map ListedFile.name =
              some missing.name) ∧
      ((∃ written, (finish writer).1 = .ok written) ↔
        beginsEmpty (awaiting delivered files) = true ∧
          (∀ failure, (finish writer).1 ≠ .error (.io archive failure)) ∧
            reported? false (awaiting delivered files) = none) := by
  obtain ⟨sameArchive, stands⟩ := run.stands
  obtain ⟨missing, isMissing⟩ :=
    Option.isSome_iff_exists.mp ((firstUnfilled?_isSome_iff delivered files).mpr short)
  have expected : beginsEmpty (awaiting delivered files) = false →
      reported? false (awaiting delivered files) = some missing := by
    intro notEmpty
    rw [reported?_eq_firstUnfilled? notEmpty, firstUnfilled?_awaiting, isMissing]
  have outcome := finish_outcome stands
  rw [sameArchive] at outcome
  refine ⟨missing, isMissing, ?_⟩
  cases firstEmpty : beginsEmpty (awaiting delivered files) with
  | false =>
      rcases outcome with ended | ⟨impossible, -⟩
      · rw [expected firstEmpty] at ended
        simp only at ended
        simp [ended]
      · rw [firstEmpty] at impossible
        cases impossible
  | true =>
      rcases outcome with ended | ⟨-, failure, failed⟩
      · cases found : reported? false (awaiting delivered files) with
        | none =>
            rw [found] at ended
            obtain ⟨written, ended⟩ := ended
            simp [ended]
        | some file =>
            rw [found] at ended
            simp only at ended
            simp [ended]
      · simp [failed]

/-- Files with an empty one between files that are not empty. -/
def emptyBetween : List ListedFile :=
  [⟨"a.txt", 0, 1⟩, ⟨"empty.txt", 0, 0⟩, ⟨"b.txt", 0, 1⟩, ⟨"c.txt", 0, 1⟩]

theorem finish_of_short_emptyBetween :
    ∃ writer,
      Delivers (SparseWriter.start "x.omod" ["out"] emptyBetween FileTree.empty) 1 writer ∧
      1 < payloadLength emptyBetween ∧
      ∃ missing, firstUnfilled? 1 emptyBetween = some missing ∧
        ((finish writer).1 = .error (.omodUnderrun "x.omod" missing.name) ↔
          beginsEmpty (awaiting 1 emptyBetween) = false ∨
            (∀ failure, (finish writer).1 ≠ .error (.io "x.omod" failure)) ∧
              (reported? false (awaiting 1 emptyBetween)).map ListedFile.name =
                some missing.name) ∧
        ((∃ written, (finish writer).1 = .ok written) ↔
          beginsEmpty (awaiting 1 emptyBetween) = true ∧
            (∀ failure, (finish writer).1 ≠ .error (.io "x.omod" failure)) ∧
              reported? false (awaiting 1 emptyBetween) = none) := by
  have written :
      writeAll [0x61] (SparseWriter.start "x.omod" ["out"] emptyBetween FileTree.empty) =
        .ok () _ := rfl
  have run := Delivers.start.writeAll written
  exact ⟨_, run, by decide, finish_of_short run (by decide)⟩

/-- A file is not noticed to be missing when an empty file stands right before it and nothing
after it. -/
theorem finish_ok_of_short :
    ∃ files writer,
      Delivers (SparseWriter.start "x.omod" ["out"] files FileTree.empty) 1 writer ∧
        1 < payloadLength files ∧ ∃ written, (finish writer).1 = .ok written := by
  have written :
      writeAll [0x61] (SparseWriter.start "x.omod" ["out"]
        [⟨"a.txt", 0, 1⟩, ⟨"empty.txt", 0, 0⟩, ⟨"b.txt", 0, 1⟩] FileTree.empty) =
        .ok () _ := rfl
  have run := Delivers.start.writeAll written
  exact ⟨_, _, run, by decide, _, rfl⟩

end SparseWriter
end Omod
end GameArchive
