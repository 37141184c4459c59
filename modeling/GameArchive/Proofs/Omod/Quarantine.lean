import GameArchive.Proofs.Extraction.Destination
import GameArchive.Proofs.Omod.Overwriting
import GameArchive.Proofs.Path.SingleName

/-!
# Quarantine

The file of an unsafe name is written to a quarantine file that is named for its index.  Such a name
is itself a safe one, and another file of the list may bear it.  The two then share a place, and the
later one replaces the earlier one.  Nothing else can come to the place of a quarantine file.
-/

namespace GameArchive
namespace Omod

/-- The name of the quarantine file of the file at an index. -/
def quarantineName (index : Nat) : String :=
  "IllegalFile_" ++ toString index

theorem toList_quarantineName (index : Nat) :
    (quarantineName index).toList = "IllegalFile_".toList ++ Nat.toDigits 10 index := by
  rw [quarantineName, String.toList_append, Nat.toString_eq_repr, Nat.toList_repr]

theorem quarantineName_inj {first second : Nat}
    (same : quarantineName first = quarantineName second) : first = second := by
  have digits : Nat.toDigits 10 first = Nat.toDigits 10 second := by
    have characters := congrArg String.toList same
    rw [toList_quarantineName, toList_quarantineName] at characters
    exact List.append_cancel_left characters
  rw [← Nat.ofDigitChars_ten_toDigits (n := first), digits, Nat.ofDigitChars_ten_toDigits]

theorem isSafe_quarantineName (index : Nat) : Path.isSafe (quarantineName index) = true := by
  have plain : ∀ character ∈ (quarantineName index).toList,
      Path.isForbiddenAtEdge character = false ∧ character ≠ '.' := by
    intro character member
    rw [toList_quarantineName] at member
    rcases List.mem_append.mp member with letter | number
    · have letters : ∀ character ∈ "IllegalFile_".toList,
          Path.isForbiddenAtEdge character = false ∧ character ≠ '.' := by
        simp [Path.isForbiddenAtEdge, Path.isForbidden, Path.isSeparator]
      exact letters character letter
    · exact Path.plain_of_isDigit (Nat.isDigit_of_mem_toDigits (by decide) (by decide) number)
  have noSlash : '/' ∉ (quarantineName index).toList := fun member =>
    absurd (plain _ member).1 (by decide)
  rw [Path.isSafe, Path.replace_of_not_mem _ noSlash]
  apply Path.isSafeWindows_of_plain _ plain
  rw [toList_quarantineName]
  exact List.append_ne_nil_of_left_ne_nil (by decide) _

theorem noSeparator_quarantineName (index : Nat) :
    '/' ∉ (quarantineName index).toList ∧ '\\' ∉ (quarantineName index).toList := by
  constructor
  · exact fun member => absurd (SparseWriter.plain_illegalFile index _ member) (by decide)
  · exact fun member => absurd (SparseWriter.plain_illegalFile index _ member) (by decide)

/-- The name of a quarantine file leads to the place right below a directory. -/
theorem steps_quarantineName (index : Nat) :
    (Path.names (quarantineName index).toList).filter Path.isStep = [quarantineName index] := by
  have starts : ∃ rest, (quarantineName index).toList = 'I' :: rest :=
    ⟨_, toList_quarantineName index⟩
  obtain ⟨rest, characters⟩ := starts
  have step : Path.isStep (quarantineName index) = true := by
    rw [← String.ofList_toList (s := quarantineName index), characters]
    exact Path.isStep_ofList (List.cons_ne_nil _ _) fun stop =>
      absurd (List.cons.inj stop).1 (by decide)
  rw [Path.names, Path.split, Path.splitAt_of_plain (noSeparator_quarantineName index).1,
    List.map_singleton, String.ofList_toList, List.filter_cons_of_pos step, List.filter_nil]

namespace SparseWriter

/-- No other file of a list is written to the place of the file at an index. -/
def Isolated (destination : Location) (files : List ListedFile) (index : Nat)
    (file : ListedFile) : Prop :=
  ∀ other another, files[other]? = some another → other ≠ index →
    target destination other another ≠ target destination index file

section Places

variable {destination : Location} {files : List ListedFile} {index other : Nat}
  {file another : ListedFile}

theorem target_eq_append (destination : Location) (index : Nat) (file : ListedFile) :
    target destination index file =
      destination ++ (Path.names (targetPath index file).toList).filter Path.isStep := by
  have descends := descends_targetPath index file
  rw [target, Path.resolve_eq_follow, if_neg descends.unrooted,
    Location.follow_of_noParent destination descends.noParent]
  rfl

theorem target_of_quarantined (isUnsafe : Path.isSafe file.name = false) :
    target destination index file = destination ++ [quarantineName index] := by
  have path : targetPath index file = quarantineName index := by
    rw [targetPath, isUnsafe]
    rfl
  rw [target_eq_append, path, steps_quarantineName]

/-- Only a file that bears the name of a quarantine file, and the file that it belongs to, have its
place. -/
theorem target_eq_quarantine_iff :
    target destination other another = destination ++ [quarantineName index] ↔
      another.name = quarantineName index ∨ Path.isSafe another.name = false ∧ other = index := by
  cases safe : Path.isSafe another.name with
  | true =>
      have path : targetPath other another = Path.toNative another.name := by
        rw [targetPath, if_pos safe]
      rw [target_eq_append, path, List.append_cancel_left_eq]
      constructor
      · exact fun leads => .inl (Path.eq_of_steps_eq_singleton safe leads)
      · rintro (named | ⟨impossible, -⟩)
        · rw [named, Path.toNative_of_not_mem (noSeparator_quarantineName index).2,
            steps_quarantineName]
        · cases impossible
  | false =>
      rw [target_of_quarantined safe, List.append_cancel_left_eq, List.singleton_inj]
      constructor
      · exact fun same => .inr ⟨rfl, quarantineName_inj same⟩
      · rintro (named | ⟨-, rfl⟩)
        · rw [named, isSafe_quarantineName] at safe
          cases safe
        · rfl

theorem isolated_iff (there : files[index]? = some file)
    (isUnsafe : Path.isSafe file.name = false) :
    Isolated destination files index file ↔
      ∀ another ∈ files, another.name ≠ quarantineName index := by
  unfold Isolated
  rw [target_of_quarantined isUnsafe]
  constructor
  · intro isolated another member named
    obtain ⟨other, below, found⟩ := List.mem_iff_getElem.mp member
    have otherThere : files[other]? = some another := List.getElem?_eq_some_iff.mpr ⟨below, found⟩
    have different : other ≠ index := by
      rintro rfl
      rw [there] at otherThere
      cases otherThere
      rw [named, isSafe_quarantineName] at isUnsafe
      cases isUnsafe
    exact isolated other another otherThere different (target_eq_quarantine_iff.mpr (.inl named))
  · intro unnamed other another otherThere different same
    rcases target_eq_quarantine_iff.mp same with named | ⟨-, equal⟩
    · exact unnamed another (List.mem_of_getElem? otherThere) named
    · exact different equal

/-- What is reported of a list is reported at the place of a file with a safe name. -/
theorem exists_of_mem_safeFiles {written : WrittenFile} (member : written ∈ safeFiles files) :
    ∃ other another, files[other]? = some another ∧ Path.isSafe another.name = true ∧
      Location.resolve destination written.path = target destination other another := by
  obtain ⟨another, among, rfl⟩ := List.mem_map.mp member
  obtain ⟨inFiles, safe⟩ := List.mem_filter.mp among
  obtain ⟨other, below, found⟩ := List.mem_iff_getElem.mp inFiles
  refine ⟨other, another, List.getElem?_eq_some_iff.mpr ⟨below, found⟩, safe, ?_⟩
  rw [target, targetPath, if_pos safe]

end Places

/-- The place of an unsafe name is its own exactly when no file bears the name of its quarantine
file.  Then the quarantine file ends up with the part of the payload that belongs to it, and nothing
is reported at its place.  A file with a safe name that is not the name of the quarantine file of
another one ends up with a part that belongs to a safe name. -/
theorem quarantine_isolated_iff (destination : Location) (files : List ListedFile) :
    (∀ index file, files[index]? = some file → Path.isSafe file.name = false →
      (Isolated destination files index file ↔
        ∀ another ∈ files, another.name ≠ quarantineName index)) ∧
    ∀ archive tree stream writer reported final,
      Feeds (start archive destination files tree) stream writer →
      finish writer = (.ok reported, final) →
      reported = safeFiles files ∧
      ∀ index file, files[index]? = some file →
        (Path.isSafe file.name = false →
          (∀ another ∈ files, another.name ≠ quarantineName index) →
          final.tree.contents? (target destination index file) =
              some (stream.window (payloadLength (files.take index)) file.length) ∧
            ∀ written ∈ reported,
              Location.resolve destination written.path ≠ target destination index file) ∧
        (Path.isSafe file.name = true →
          (∀ other another, files[other]? = some another → Path.isSafe another.name = false →
            file.name ≠ quarantineName other) →
          ∃ last latest, files[last]? = some latest ∧ Path.isSafe latest.name = true ∧
            target destination last latest = target destination index file ∧
            final.tree.contents? (target destination index file) =
              some (stream.window (payloadLength (files.take last)) latest.length)) := by
  refine ⟨fun index file there isUnsafe => isolated_iff there isUnsafe, ?_⟩
  intro archive tree stream writer reported final run finished
  obtain ⟨rfl, holds⟩ := run.laid.finish finished
  refine ⟨rfl, fun index file there => ⟨fun isUnsafe unnamed => ?_, fun safe apart => ?_⟩⟩
  · have isolated : Isolated destination files index file :=
      (isolated_iff there isUnsafe).mpr unnamed
    constructor
    · exact holds index file there fun later other behind otherThere =>
        isolated later other otherThere (Nat.ne_of_gt behind)
    · intro written member
      obtain ⟨other, another, otherThere, safe, place⟩ := exists_of_mem_safeFiles member
      rw [place]
      apply isolated other another otherThere
      rintro rfl
      rw [there] at otherThere
      cases otherThere
      rw [isUnsafe] at safe
      cases safe
  · obtain ⟨last, latest, lastThere, isLast, same⟩ := exists_isLastAt destination there
    refine ⟨last, latest, lastThere, ?_, same, ?_⟩
    · cases lastSafe : Path.isSafe latest.name with
      | true => rfl
      | false =>
          rw [target_of_quarantined lastSafe] at same
          rcases target_eq_quarantine_iff.mp same.symm with named | ⟨isUnsafe, -⟩
          · exact absurd named (apart last latest lastThere lastSafe)
          · rw [safe] at isUnsafe
            cases isUnsafe
    · rw [← same]
      exact holds last latest lastThere isLast

/-- A quarantine file in front of a file whose name looks like that of another one. -/
theorem quarantine_isolated_iff_otherNumber :
    let files : List ListedFile := [⟨"..\\evil.txt", 0, 1⟩, ⟨"IllegalFile_1", 0, 1⟩]
    Isolated ["out"] files 0 ⟨"..\\evil.txt", 0, 1⟩ ∧
      ∃ writer reported final,
        Feeds (start "x.omod" ["out"] files FileTree.empty) [1, 2] writer ∧
        finish writer = (.ok reported, final) ∧
        final.tree.contents? (target ["out"] 0 ⟨"..\\evil.txt", 0, 1⟩) = some [1] := by
  intro files
  let quarantined : Location × FileNode := (["out", "IllegalFile_0"], .file [1] false)
  let named : Location × FileNode := (["out", "IllegalFile_1"], .file [2] false)
  let middle : SparseWriter :=
    ⟨"x.omod", ["out"], [(1, ⟨"IllegalFile_1", 0, 1⟩)], none, [],
      ⟨[(["out"], .directory), quarantined]⟩⟩
  let writer : SparseWriter :=
    ⟨"x.omod", ["out"], [], none, [⟨"IllegalFile_1", "IllegalFile_1"⟩],
      ⟨[(["out"], .directory), quarantined, named]⟩⟩
  have first : write [1, 2] (start "x.omod" ["out"] files FileTree.empty) = .ok 1 middle := by
    decide +kernel
  have second : write [2] middle = .ok 1 writer := by decide +kernel
  have run := (Feeds.start.write _ first).write _ second
  obtain ⟨isolates, ends⟩ := quarantine_isolated_iff ["out"] files
  obtain ⟨-, each⟩ := ends _ _ _ _ _ _ run rfl
  have unnamed : ∀ another ∈ files, another.name ≠ quarantineName 0 := by decide
  exact ⟨(isolates 0 _ rfl (by decide)).mpr unnamed, writer, _, _, run, rfl,
    ((each 0 _ rfl).1 (by decide) unnamed).1⟩

/-- A safe name that is the name of the quarantine file behind it: the file of the safe name is
reported with the contents of the unsafe one. -/
theorem quarantine_shared :
    let files : List ListedFile := [⟨"IllegalFile_1", 0, 1⟩, ⟨"..\\evil.txt", 0, 1⟩]
    Path.isSafe "..\\evil.txt" = false ∧
      target ["out"] 0 ⟨"IllegalFile_1", 0, 1⟩ = target ["out"] 1 ⟨"..\\evil.txt", 0, 1⟩ ∧
      ∃ writer final,
        writeAll [0x61, 0x62] (start "x.omod" ["out"] files FileTree.empty) = .ok () writer ∧
        finish writer = (.ok [⟨"IllegalFile_1", "IllegalFile_1"⟩], final) ∧
        final.tree.contents? ["out", "IllegalFile_1"] = some [0x62] := by
  intro files
  let writer : SparseWriter :=
    ⟨"x.omod", ["out"], [], none, [⟨"IllegalFile_1", "IllegalFile_1"⟩],
      ⟨[(["out"], .directory), (["out", "IllegalFile_1"], .file [0x62] false)]⟩⟩
  have written : writeAll [0x61, 0x62] (start "x.omod" ["out"] files FileTree.empty) =
      .ok () writer := by
    decide +kernel
  exact ⟨by decide, by decide +kernel, writer, writer, written, rfl, rfl⟩

end SparseWriter
end Omod
end GameArchive
