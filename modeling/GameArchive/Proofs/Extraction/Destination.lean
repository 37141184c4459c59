import GameArchive.Extraction.ToDirectory
import GameArchive.Proofs.Path.Descent

/-!
# Extraction stays below its destination

What an extraction moves, and what a payload is cut into, goes to a place strictly below the
destination.  For the moves this is said of the mover: an extraction does not depend on what its
mover does with other targets, so it never names one.
-/

namespace GameArchive
namespace Omod
namespace SparseWriter

theorem plain_illegalFile (index : Nat) :
    ∀ character ∈ ("IllegalFile_" ++ toString index).toList,
      Path.isSeparator character = false := by
  have letters : ∀ character ∈ "IllegalFile_".toList, Path.isSeparator character = false := by
    simp [Path.isSeparator]
  intro character member
  rw [String.toList_append, Nat.toString_eq_repr, Nat.toList_repr] at member
  rcases List.mem_append.mp member with letter | number
  · exact letters character letter
  · have digit := Nat.isDigit_of_mem_toDigits (by decide) (by decide) number
    rw [Bool.eq_false_iff]
    intro separates
    rw [Path.isSeparator, Bool.or_eq_true, beq_iff_eq, beq_iff_eq] at separates
    rcases separates with rfl | rfl
    · cases digit
    · cases digit

/-- Every file of a payload has its place below every directory, its name safe or not. -/
theorem descends_targetPath (index : Nat) (file : ListedFile) :
    Path.Descends (targetPath index file).toList := by
  unfold targetPath
  split
  · next safe => exact Path.descends_of_isSafe safe
  · have characters : ("IllegalFile_" ++ toString index).toList =
        'I' :: ("llegalFile_" ++ toString index).toList := by
      simp
    apply Path.descends_of_plain
    · intro slash
      exact absurd (plain_illegalFile index '/' slash) (by decide)
    all_goals
      rw [characters]
      simp

theorem toNative_targetPath (index : Nat) (file : ListedFile) :
    Path.toNative (targetPath index file) = targetPath index file := by
  apply Path.toNative_of_not_mem
  unfold targetPath
  split
  · rw [Path.toNative, String.toList_ofList]
    exact Path.not_mem_replace (by decide) _
  · intro backslash
    exact absurd (plain_illegalFile index '\\' backslash) (by decide)

end SparseWriter
end Omod

namespace Extraction

/-- Puts an entry below a destination with the mover that is given. -/
def placeBy (move : Entry → String → EStateM ExtractError FileTree Unit)
    (destination : String) : Projection Unit :=
  fun entry surroundings =>
    if Path.isSafe entry.path then
      match move entry (Path.join destination entry.path) surroundings.tree with
      | .ok _ tree => .ok () { surroundings with tree }
      | .error failure tree => .error (.extraction failure) { surroundings with tree }
    else
      .error (.messages ["refusing to write " ++ entry.path ++ " outside the destination"])
        surroundings

theorem placeBy_moveTo (workingDirectory : Location) (destination : String) :
    placeBy (fun entry => entry.moveTo workingDirectory) destination =
      placeBelow workingDirectory destination :=
  rfl

/-- Movers that do the same strictly below the destination put entries to the same places. -/
theorem placeBy_congr {first second : Entry → String → EStateM ExtractError FileTree Unit}
    {destination : String}
    (agree : ∀ entry target, Path.StrictlyBelow destination target →
      first entry target = second entry target) :
    placeBy first destination = placeBy second destination := by
  funext entry surroundings
  unfold placeBy
  split
  · next safe =>
      have below := Path.strictlyBelow_join destination (Path.descends_of_isSafe safe)
      rw [agree entry _ below]
  · rfl

end Extraction

/-- `extractTo` with the mover that is given. -/
def Extractor.extractToBy (extractor : Extractor)
    (move : Entry → String → EStateM ExtractError FileTree Unit) (origin : Origin)
    (destination : String) (only? : Option (List String)) : Extraction Nat := do
  let request : Request Unit := {
    filter := Extraction.isNamed only?
    project := Extraction.placeBy move destination
    only? }
  let results ← extractor.extract request origin
  pure results.length

namespace Extraction

open Omod (ListedFile)
open Omod.SparseWriter (targetPath)

/-- Safe names, the files of payloads and the targets of moves lie strictly below the directory
that they are read from. -/
theorem targets_strictlyBelow :
    (∀ base name, Path.isSafe name → Path.StrictlyBelow base (Path.join base name)) ∧
    (∀ base index file, Path.StrictlyBelow base (Path.join base (targetPath index file))) ∧
    (∀ (destination : Location) (index : Nat) (file : ListedFile), ∃ added, added ≠ [] ∧
      Location.resolve destination (targetPath index file) = destination ++ added) ∧
    ∀ (extractor : Extractor) (origin : Origin) (destination : String)
      (only? : Option (List String))
      (move : Entry → String → EStateM ExtractError FileTree Unit),
      (∀ entry target, Path.StrictlyBelow destination target →
        move entry target = entry.moveTo extractor.workingDirectory target) →
      extractor.extractToBy move origin destination only? =
        extractor.extractTo origin destination only? := by
  refine ⟨?_, ?_, ?_, ?_⟩
  · intro base name safe
    exact Path.strictlyBelow_join base (Path.descends_of_isSafe safe)
  · intro base index file
    apply Path.strictlyBelow_join
    rw [Omod.SparseWriter.toNative_targetPath]
    exact Omod.SparseWriter.descends_targetPath index file
  · intro destination index file
    have descends := Omod.SparseWriter.descends_targetPath index file
    rw [Path.resolve_eq_follow, if_neg descends.unrooted]
    exact descends.follow destination
  · intro extractor origin destination only? move agree
    have same := placeBy_congr agree
    unfold Extractor.extractToBy Extractor.extractTo
    rw [same, placeBy_moveTo]

/-- A name with full stops at the edges of its components, and a mover that refuses whatever is not
strictly below the destination. -/
theorem targets_strictlyBelow_fullStops :
    Path.isSafe "a..\\..b/.c\\d..e" ∧
      Path.StrictlyBelow "out/" "out/a../..b/.c/d..e" ∧
      ∃ move : Entry → String → EStateM ExtractError FileTree Unit,
        move (.native "b" []) "b" FileTree.empty = .error (.cancelled "b") FileTree.empty ∧
        (⟨[], "tmp", fun _ => .error .system⟩ : Extractor).extractToBy move (.file "a.bsa") "out"
            none =
          (⟨[], "tmp", fun _ => .error .system⟩ : Extractor).extractTo (.file "a.bsa") "out"
            none := by
  have safe : Path.isSafe "a..\\..b/.c\\d..e" := by decide
  have joined : Path.join "out/" "a..\\..b/.c\\d..e" = "out/a../..b/.c/d..e" := by decide
  have below := targets_strictlyBelow.1 "out/" _ safe
  rw [joined] at below
  refine ⟨safe, below, ?_⟩
  classical
  let extractor : Extractor := ⟨[], "tmp", fun _ => .error .system⟩
  let move : Entry → String → EStateM ExtractError FileTree Unit := fun entry target =>
    if Path.StrictlyBelow "out" target then entry.moveTo [] target
    else throw (.cancelled target)
  have outside : ¬ Path.StrictlyBelow "out" "b" := by
    rintro ⟨rest, text, -⟩
    have first := congrArg List.head? text
    cases first
  refine ⟨move, ?_, ?_⟩
  · change (if Path.StrictlyBelow "out" "b" then (Entry.native "b" []).moveTo [] "b"
      else throw (.cancelled "b")) FileTree.empty = _
    rw [if_neg outside]
    rfl
  · exact targets_strictlyBelow.2.2.2 extractor (.file "a.bsa") "out" none move
      fun entry target inside => if_pos inside

end Extraction
end GameArchive
