import GameArchive.Proofs.Archiver.Output
import GameArchive.Proofs.Extraction.Course

/-!
# Progress adds up

A tracker counts what a percentage adds to the greatest one before it.  The numbers that it gives
for some percentages add up to what the greatest of them makes of the source, so that nothing is
lost or counted twice by rounding, and neither the order of the percentages nor their repetition
matters.  As long as the hundredfold size of the source is a word, the tracker computes exactly.

A run of the archiver reports these numbers, without those that are zero.
-/

namespace GameArchive
namespace Archiver

/-- The greatest of some percentages, none of which counts for more than a hundred. -/
def greatest : List Nat → Nat
  | [] => 0
  | percentage :: percentages => max (min percentage 100) (greatest percentages)

/-- The part of a source that a percentage stands for, in whole bytes. -/
def share (total percentage : Nat) : Nat :=
  total * percentage / 100

/-- The sum of some numbers of bytes, as a number without bounds. -/
def sum : List UInt64 → Nat
  | [] => 0
  | delta :: deltas => delta.toNat + sum deltas

/-! ## Percentages -/

theorem greatest_le_iff {percentages : List Nat} {bound : Nat} :
    greatest percentages ≤ bound ↔ ∀ percentage ∈ percentages, min percentage 100 ≤ bound := by
  induction percentages with
  | nil => simp [greatest]
  | cons percentage percentages ih => rw [greatest, Nat.max_le, ih, List.forall_mem_cons]

theorem le_greatest {percentages : List Nat} {percentage : Nat}
    (member : percentage ∈ percentages) : min percentage 100 ≤ greatest percentages :=
  greatest_le_iff.mp (Nat.le_refl _) percentage member

theorem greatest_le_hundred (percentages : List Nat) : greatest percentages ≤ 100 :=
  greatest_le_iff.mpr fun _ _ => Nat.min_le_right _ _

theorem greatest_le_of_subset {first second : List Nat} (within : first ⊆ second) :
    greatest first ≤ greatest second :=
  greatest_le_iff.mpr fun _ member => le_greatest (within member)

theorem share_le (total : Nat) {percentage : Nat} (small : percentage ≤ 100) :
    share total percentage ≤ total := by
  have bound := Nat.mul_le_mul_left total small
  rw [share]
  omega

theorem share_hundred (total : Nat) : share total 100 = total := by
  rw [share]
  omega

theorem share_max (total first second : Nat) :
    share total (max first second) = max (share total first) (share total second) := by
  have mono {less more : Nat} (le : less ≤ more) : share total less ≤ share total more :=
    Nat.div_le_div_right (Nat.mul_le_mul_left total le)
  rcases Nat.le_total first second with le | le
  · rw [Nat.max_eq_right le, Nat.max_eq_right (mono le)]
  · rw [Nat.max_eq_left le, Nat.max_eq_left (mono le)]

/-! ## The tracker -/

namespace Tracker

variable {tracker : Tracker}

theorem mark_lt (tracker : Tracker) (percentage : Nat) : tracker.mark percentage < UInt64.size := by
  have bound : min (tracker.total.toNat * min percentage 100) greatestWord ≤ greatestWord :=
    Nat.min_le_right _ _
  have word : greatestWord < UInt64.size := by decide
  rw [mark]
  omega

theorem mark_eq (small : tracker.total.toNat ≤ greatestWord / 100) (percentage : Nat) :
    tracker.mark percentage = share tracker.total.toNat (min percentage 100) := by
  have bound := Nat.mul_le_mul small (Nat.min_le_right percentage 100)
  rw [mark, share, Nat.min_eq_left (by omega)]

/-- A step counts what the percentage adds to what is done. -/
theorem advance_eq (tracker : Tracker) (percentage : Nat) :
    (tracker.advance percentage).1.toNat + tracker.done.toNat =
        max tracker.done.toNat (tracker.mark percentage) ∧
      (tracker.advance percentage).2.done.toNat =
        max tracker.done.toNat (tracker.mark percentage) ∧
      (tracker.advance percentage).2.total = tracker.total := by
  have markFits := tracker.mark_lt percentage
  have doneFits := tracker.done.toNat_lt
  have deltaFits : tracker.mark percentage - tracker.done.toNat < UInt64.size := by omega
  have nextFits : max tracker.done.toNat (tracker.mark percentage) < UInt64.size :=
    Nat.max_lt.mpr ⟨doneFits, markFits⟩
  refine ⟨?_, UInt64.toNat_ofNat_of_lt' nextFits, rfl⟩
  rw [advance]
  simp only
  rw [UInt64.toNat_ofNat_of_lt' deltaFits]
  omega

/-- A run counts what the greatest percentage adds to what was done before it. -/
theorem sum_advances (small : tracker.total.toNat ≤ greatestWord / 100) (percentages : List Nat) :
    sum (tracker.advances percentages) + tracker.done.toNat =
      max tracker.done.toNat (share tracker.total.toNat (greatest percentages)) := by
  induction percentages generalizing tracker with
  | nil => simp [advances, sum, greatest, share]
  | cons percentage percentages ih =>
      obtain ⟨counted, done, totalEq⟩ := tracker.advance_eq percentage
      rw [← totalEq] at small
      have further := ih small
      rw [totalEq] at small further
      rw [advances, greatest, share_max, ← mark_eq small]
      simp only [sum]
      omega

theorem sum_filter (deltas : List UInt64) : sum (deltas.filter (· ≠ 0)) = sum deltas := by
  induction deltas with
  | nil => rfl
  | cons delta deltas ih =>
      by_cases nothing : delta = 0
      · rw [List.filter_cons_of_neg (by simpa using nothing), ih, sum, nothing]
        exact (Nat.zero_add _).symm
      · rw [List.filter_cons_of_pos (by simpa using nothing), sum, ih, sum]

theorem pos_of_mem_deltas {lines : List String} {delta : UInt64}
    (member : delta ∈ tracker.deltas lines) : 0 < delta := by
  have notZero := (List.mem_filter.mp member).2
  exact UInt64.pos_iff_ne_zero.mpr (by simpa using notZero)

theorem sum_deltas {total : Nat} (small : total ≤ greatestWord / 100) (lines : List String) :
    sum ((start (UInt64.ofNat total)).deltas lines) =
      share total (greatest (lines.filterMap percentage?)) := by
  have word : (start (UInt64.ofNat total)).total.toNat = total :=
    UInt64.toNat_ofNat_of_lt' (Nat.lt_of_le_of_lt small (by decide))
  have fits : (start (UInt64.ofNat total)).total.toNat ≤ greatestWord / 100 := by rwa [word]
  have counted := sum_advances fits (lines.filterMap percentage?)
  rw [word] at counted
  have nothing : (start (UInt64.ofNat total)).done.toNat = 0 := rfl
  rw [deltas, sum_filter]
  omega

end Tracker
end Archiver

namespace Extraction

open Archiver

theorem reportAll_eq (deltas : List UInt64) (session : Session) :
    reportAll deltas session = .ok () (deltas.foldl Session.counting session) := by
  induction deltas generalizing session with
  | nil => rfl
  | cons delta deltas ih => exact ih (session.counting delta)

/-- Reports are counted twice: by the limiter and by the progress of the extraction. -/
theorem foldl_counting (deltas : List UInt64) (session : Session) :
    (deltas.foldl Session.counting session).progress.done =
        session.progress.done + UInt64.ofNat (sum deltas) ∧
      (deltas.foldl Session.counting session).limiter.totalBytes =
        session.limiter.totalBytes + UInt64.ofNat (sum deltas) := by
  induction deltas generalizing session with
  | nil => exact ⟨(UInt64.add_zero _).symm, (UInt64.add_zero _).symm⟩
  | cons delta deltas ih =>
      obtain ⟨done, counted⟩ := ih (session.counting delta)
      rw [List.foldl_cons, done, counted, sum, UInt64.ofNat_add, UInt64.ofNat_toNat,
        ← UInt64.add_assoc, ← UInt64.add_assoc]
      exact ⟨rfl, rfl⟩

/-- A program that could be run has all its progress reported, whatever it ends with. -/
theorem runArchiver_eq {launch : Launch} {program : String} {arguments : List String}
    {session : Session} {run : ProgramRun}
    (launched : launch program arguments session.tree = .ok run) (archive : String) (total : Nat) :
    runArchiver (runProgram launch program) archive total arguments session =
      .ok (run.exitCode?.getD signalCode)
        (((Tracker.start (UInt64.ofNat total)).deltas (lines run.output)).foldl Session.counting
          { session with tree := run.tree }) := by
  have ran : runProgram launch program arguments session.tree =
      ⟨run.tree, lines run.output, .ok (run.exitCode?.getD signalCode), false⟩ := by
    rw [runProgram, launched]
  rw [runArchiver, Outcome.get_bind, ran, Outcome.modify_bind, Outcome.state_bind, reportAll_eq]
  simp only [Bool.or_false]
  rfl

/-- A run reports the part of the source that the greatest percentage in its output stands for, in
positive numbers, however the output is cut into chunks. -/
theorem runArchiver_reports {launch : Launch} {program archive : String}
    {arguments : List String} {total : Nat} {session : Session} {run : ProgramRun}
    (small : total ≤ Tracker.greatestWord / 100)
    (launched : launch program arguments session.tree = .ok run) :
    let printed := printedLines run.output.flatten
    let deltas := (Tracker.start (UInt64.ofNat total)).deltas printed
    let after := deltas.foldl Session.counting { session with tree := run.tree }
    lines run.output = printed ∧
      runArchiver (runProgram launch program) archive total arguments session =
        .ok (run.exitCode?.getD signalCode) after ∧
      after.progress.done = session.progress.done + UInt64.ofNat (sum deltas) ∧
      after.limiter.totalBytes = session.limiter.totalBytes + UInt64.ofNat (sum deltas) ∧
      (∀ delta ∈ deltas, 0 < delta) ∧
      sum deltas = total * greatest (printed.filterMap percentage?) / 100 ∧
      sum deltas ≤ total ∧
      ((∃ line ∈ printed, ∃ percentage, percentage? line = some percentage ∧ 100 ≤ percentage) →
        sum deltas = total) ∧
      ∀ others : List String, (∀ line, line ∈ others ↔ line ∈ printed) →
        sum ((Tracker.start (UInt64.ofNat total)).deltas others) = sum deltas := by
  intro printed deltas after
  have linesEq : lines run.output = printed := lines_eq run.output
  have sumEq : sum deltas = share total (greatest (printed.filterMap percentage?)) :=
    Tracker.sum_deltas small printed
  obtain ⟨done, counted⟩ := foldl_counting deltas { session with tree := run.tree }
  refine ⟨linesEq, ?_, done, counted, fun _ => Tracker.pos_of_mem_deltas, sumEq, ?_, ?_, ?_⟩
  · rw [runArchiver_eq launched, linesEq]
  · rw [sumEq]
    exact share_le total (greatest_le_hundred _)
  · rintro ⟨line, member, percentage, shown, complete⟩
    have reached := le_greatest (List.mem_filterMap.mpr ⟨line, member, shown⟩)
    have whole : greatest (printed.filterMap percentage?) = 100 :=
      Nat.le_antisymm (greatest_le_hundred _) (by omega)
    rw [sumEq, whole, share_hundred]
  · intro others alike
    have same : greatest (others.filterMap percentage?) =
        greatest (printed.filterMap percentage?) :=
      Nat.le_antisymm
        (greatest_le_of_subset (List.filterMap_subset _ fun line => (alike line).mp))
        (greatest_le_of_subset (List.filterMap_subset _ fun line => (alike line).mpr))
    rw [Tracker.sum_deltas small, same, ← sumEq]

/-- A program that redraws its progress, goes back, ends beyond a hundred, and is ended itself by a
signal. -/
theorem runArchiver_reports_redrawn :
    let run : ProgramRun := ⟨.empty, [[0x20, 0x34], [0x32, 0x25, 0x20, 0x33, 0x08, 0x20, 0x31],
      [0x37, 0x25, 0x20, 0x33, 0x0D], [0x0A, 0x31, 0x33, 0x30, 0x25, 0x20, 0x33]], none⟩
    let launch : Launch := fun _ _ _ => .ok run
    let session : Session := ⟨⟨.empty, false⟩, .ofMaximum 1, ⟨0, 0⟩, []⟩
    let printed := printedLines run.output.flatten
    let deltas := (Tracker.start (UInt64.ofNat 1999)).deltas printed
    (1999 ≤ Tracker.greatestWord / 100 ∧ launch "7zz" [] session.tree = .ok run) ∧
      printed = [" 42% 3", " 17% 3", "130% 3"] ∧ deltas = [839, 1160] ∧
      (∃ after, runArchiver (runProgram launch "7zz") "a.7z" 1999 [] session = .ok (-1) after ∧
        after.progress.done = UInt64.ofNat (sum deltas)) ∧
      sum deltas = 1999 := by
  intro run launch session printed deltas
  have printedEq : printed = [" 42% 3", " 17% 3", "130% 3"] := by decide +kernel
  have small : 1999 ≤ Tracker.greatestWord / 100 := by decide
  have launched : launch "7zz" [] session.tree = .ok run := rfl
  obtain ⟨-, ran, done, -, -, -, -, whole, -⟩ :=
    @runArchiver_reports launch "7zz" "a.7z" [] 1999 session run small launched
  have last : "130% 3" ∈ printed := by simp [printedEq]
  have complete : sum deltas = 1999 := whole ⟨_, last, 130, by decide +kernel, by decide⟩
  exact ⟨⟨small, launched⟩, printedEq, by decide +kernel,
    ⟨_, ran, done.trans (UInt64.zero_add _)⟩, complete⟩

end Extraction
end GameArchive
