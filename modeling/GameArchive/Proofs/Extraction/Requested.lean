import GameArchive.Proofs.Extraction.Placement
import Mathlib.Data.List.Nodup
import Mathlib.Data.List.Perm.Subperm

/-!
# Requested entries

An extraction of named entries succeeds when it has put as many entries as there are names.  Every
entry that it has put is named, but a name can be left over when two entries answer to another one.
When the entries that were put differ by their lookup keys, no name is left over.
-/

namespace GameArchive
namespace Extraction

section Counting

variable {first second : List String}

theorem nodup_eraseDups (texts : List String) : texts.eraseDups.Nodup := by
  match texts with
  | [] => exact List.nodup_nil
  | text :: texts =>
      have shorter : (texts.filter fun other => !other == text).length < texts.length + 1 :=
        Nat.lt_succ_of_le (List.length_filter_le _ texts)
      rw [List.eraseDups_cons, List.nodup_cons]
      exact ⟨by simp, nodup_eraseDups _⟩
termination_by texts.length

/-- Among some texts there are all of a list when they are no fewer, equal ones aside. -/
theorem subset_of_length_le (distinct : first.Nodup) (inside : first ⊆ second)
    (enough : second.eraseDups.length ≤ first.length) : second ⊆ first := by
  have within : first ⊆ second.eraseDups := fun text member =>
    List.mem_eraseDups.mpr (inside member)
  have same := (List.subperm_of_subset distinct within).perm_of_length_le enough
  intro text member
  exact same.mem_iff.mpr (List.mem_eraseDups.mpr member)

theorem subset_iff_length_eraseDups (inside : first ⊆ second) :
    second ⊆ first ↔ first.eraseDups.length = second.eraseDups.length := by
  constructor
  · intro outside
    refine ((List.perm_ext_iff_of_nodup (nodup_eraseDups _) (nodup_eraseDups _)).mpr
      fun text => ?_).length_eq
    rw [List.mem_eraseDups, List.mem_eraseDups]
    exact ⟨fun member => inside member, fun member => outside member⟩
  · intro counted
    have within : first.eraseDups ⊆ second := fun text member =>
      inside (List.mem_eraseDups.mp member)
    have outside := subset_of_length_le (nodup_eraseDups first) within (Nat.le_of_eq counted.symm)
    exact fun text member => List.mem_eraseDups.mp (outside member)

theorem length_eraseDups_map_le (texts : List String) (change : String → String) :
    (texts.map change).eraseDups.length ≤ texts.eraseDups.length := by
  have within : (texts.map change).eraseDups ⊆ texts.eraseDups.map change := by
    intro text member
    obtain ⟨other, among, rfl⟩ := List.mem_map.mp (List.mem_eraseDups.mp member)
    exact List.mem_map_of_mem (List.mem_eraseDups.mpr among)
  have fewer := (List.subperm_of_subset (nodup_eraseDups _) within).length_le
  rwa [List.length_map] at fewer

end Counting

/-- Every name of a list is answered by an entry that was put. -/
def Answers (log : Results Placement) (only : List String) : Prop :=
  ∀ requested ∈ only, ∃ written ∈ log, Path.lookupKey written.1 = Path.lookupKey requested

theorem answers_iff_subset {log : Results Placement} {only : List String} :
    Answers log only ↔ only.map Path.lookupKey ⊆ log.paths.map Path.lookupKey := by
  constructor
  · intro answers key member
    obtain ⟨requested, among, rfl⟩ := List.mem_map.mp member
    obtain ⟨written, put, same⟩ := answers requested among
    rw [← same]
    exact List.mem_map_of_mem (List.mem_map_of_mem put)
  · intro inside requested among
    obtain ⟨path, put, same⟩ := List.mem_map.mp (inside (List.mem_map_of_mem among))
    obtain ⟨written, member, rfl⟩ := List.mem_map.mp put
    exact ⟨written, member, same⟩

theorem isNamed_some_iff {only : List String} {path : String} :
    isNamed (some only) path = true ↔
      ∃ requested ∈ only, Path.lookupKey requested = Path.lookupKey path := by
  rw [isNamed, List.contains_iff_mem, List.mem_map]

/-- An extraction of named entries that succeeds has done nothing with other ones.  It has put as
many entries as there are names, each of them answers to a name, and their paths differ.  No name is
left over exactly when their lookup keys are as many as those of the names, which is so when
entries of different paths have different ones. -/
theorem extractTo_answers {extractor : Extractor} {origin : Origin} {destination : String}
    {only : List String} {session after : Session} {count : Nat}
    (succeeded : extractor.extractTo origin destination (some only) session = .ok count after) :
    (∀ project : Projection Unit,
      (∀ entry surroundings,
        (∃ requested ∈ only, Path.lookupKey requested = Path.lookupKey entry.path) →
        project entry surroundings =
          placeBelow extractor.workingDirectory destination entry surroundings) →
      extractor.extract ⟨isNamed (some only), project, some only⟩ origin =
        extractor.extract ⟨isNamed (some only),
          placeBelow extractor.workingDirectory destination, some only⟩ origin) ∧
    ∃ log : Results Placement,
      extractor.extract ⟨isNamed (some only),
        recordBelow extractor.workingDirectory destination, some only⟩ origin session =
          .ok log after ∧
      log.length = count ∧ count = only.eraseDups.length ∧ log.paths.Nodup ∧
      (∀ written ∈ log,
        written.2.Below extractor.workingDirectory destination written.1 ∧
          ∃ requested ∈ only, Path.lookupKey requested = Path.lookupKey written.1) ∧
      (Answers log only ↔
        (log.paths.map Path.lookupKey).eraseDups.length =
          (only.map Path.lookupKey).eraseDups.length) ∧
      ((∀ first ∈ log, ∀ second ∈ log, Path.lookupKey first.1 = Path.lookupKey second.1 →
        first.1 = second.1) → Answers log only) := by
  refine ⟨fun project agree => ?_, ?_⟩
  · apply extract_congr
    intro entry surroundings wanted _
    exact agree entry surroundings (isNamed_some_iff.mp wanted)
  · rw [extractTo_eq, Outcome.state_map] at succeeded
    split at succeeded
    · next log ended extracted =>
        cases succeeded
        obtain ⟨⟨distinct, each⟩, counts⟩ := extract_sound (fun path placement =>
          placement.Below extractor.workingDirectory destination path ∧
            ∃ requested ∈ only, Path.lookupKey requested = Path.lookupKey path)
          (fun entry before placement after wanted placed =>
            ⟨recordBelow_ok placed, isNamed_some_iff.mp wanted⟩) extracted
        have counted : log.length = only.eraseDups.length := counts only rfl
        have inside : (Results.paths log).map Path.lookupKey ⊆ only.map Path.lookupKey := by
          intro key member
          obtain ⟨path, put, rfl⟩ := List.mem_map.mp member
          obtain ⟨written, among, rfl⟩ := List.mem_map.mp put
          obtain ⟨requested, named, same⟩ := (each written among).2
          rw [← same]
          exact List.mem_map_of_mem named
        refine ⟨log, extracted, rfl, counted, distinct, each, ?_, fun apart => ?_⟩
        · rw [answers_iff_subset]
          exact subset_iff_length_eraseDups inside
        · rw [answers_iff_subset]
          -- The keys of the entries are then as many as the names, and no fewer than their keys.
          refine subset_of_length_le ?_ inside ?_
          · refine distinct.map_on ?_
            intro firstPath firstPut secondPath secondPut same
            obtain ⟨one, oneAmong, rfl⟩ := List.mem_map.mp firstPut
            obtain ⟨other, otherAmong, rfl⟩ := List.mem_map.mp secondPut
            exact apart one oneAmong other otherAmong same
          · have fewer := length_eraseDups_map_le only Path.lookupKey
            rw [← counted] at fewer
            rwa [List.length_map, Results.paths, List.length_map]
    · cases succeeded

/-- One of two entries, requested in another spelling. -/
theorem extractTo_answers_oneOfTwo :
    let bytes : Bytes := [0x42, 0x54, 0x41, 0x52, 1, 0, 4, 0, 1, 0, 0x61, 1, 0, 0, 0, 0, 0, 0, 0, 7,
      1, 0, 0x62, 1, 0, 0, 0, 0, 0, 0, 0, 8]
    let extractor : Extractor := ⟨[], "tmp", fun _ => .error .system⟩
    let tree : FileTree := ⟨[(["pack.btar"], .file bytes false)]⟩
    let session : Session := ⟨⟨tree, false⟩, .ofMaximum 1, ⟨0, 0⟩, []⟩
    ∃ (after : Session) (log : Results Placement),
      extractor.extractTo (.file "pack.btar") "out" (some ["/B"]) session = .ok 1 after ∧
      log.length = 1 ∧ Answers log ["/B"] := by
  intro bytes extractor tree session
  have counted : Outcome.value?
      (extractor.extractTo (.file "pack.btar") "out" (some ["/B"]) session) = some 1 := by
    decide +kernel
  obtain ⟨after, succeeded⟩ := Outcome.exists_of_value?_eq_some counted
  obtain ⟨-, log, -, length, -, -, -, -, answers⟩ := extractTo_answers succeeded
  obtain ⟨written, rfl⟩ := List.length_eq_one_iff.mp length
  refine ⟨after, [written], succeeded, length, answers ?_⟩
  intro first firstPut second secondPut _
  rw [List.mem_singleton.mp firstPut, List.mem_singleton.mp secondPut]

/-- Two entries that answer to one name of two. -/
theorem extractTo_leftOver :
    let bytes : Bytes := [0x42, 0x54, 0x41, 0x52, 1, 0, 4, 0, 1, 0, 0x61, 1, 0, 0, 0, 0, 0, 0, 0, 7,
      1, 0, 0x41, 1, 0, 0, 0, 0, 0, 0, 0, 8]
    let extractor : Extractor := ⟨[], "tmp", fun _ => .error .system⟩
    let tree : FileTree := ⟨[(["pack.btar"], .file bytes false)]⟩
    let session : Session := ⟨⟨tree, false⟩, .ofMaximum 1, ⟨0, 0⟩, []⟩
    ∃ (after : Session) (log : Results Placement),
      extractor.extractTo (.file "pack.btar") "out" (some ["a", "b"]) session = .ok 2 after ∧
      extractor.extract ⟨isNamed (some ["a", "b"]), recordBelow [] "out", some ["a", "b"]⟩
        (.file "pack.btar") session = .ok log after ∧
      log.paths = ["a", "A"] ∧ ¬ Answers log ["a", "b"] := by
  intro bytes extractor tree session
  have listed : (Outcome.value? (extractor.extract
      ⟨isNamed (some ["a", "b"]), recordBelow [] "out", some ["a", "b"]⟩
      (.file "pack.btar") session)).map Results.paths = some ["a", "A"] := by
    decide +kernel
  obtain ⟨log, gathered, paths⟩ := Option.map_eq_some_iff.mp listed
  obtain ⟨after, extracted⟩ := Outcome.exists_of_value?_eq_some gathered
  have two : log.length = 2 := by
    have lengths := congrArg List.length paths
    rwa [Results.paths, List.length_map] at lengths
  refine ⟨after, log, ?_, extracted, paths, ?_⟩
  · rw [← two]
    exact extractTo_of_recorded extracted
  · intro answers
    obtain ⟨written, put, same⟩ := answers "b" (by simp)
    have path : written.1 ∈ Results.paths log := List.mem_map_of_mem put
    rw [paths] at path
    have others : ∀ name ∈ ["a", "A"], Path.lookupKey name ≠ Path.lookupKey "b" := by decide +kernel
    exact others _ path same

end Extraction
end GameArchive
