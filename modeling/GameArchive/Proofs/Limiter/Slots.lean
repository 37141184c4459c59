import GameArchive.Limiter.Clients
import Mathlib.Data.List.Nodup

/-!
# The slots of a limiter

However the clients of a limiter come between each other, its count of running jobs is the number of
jobs that have not been dropped, and there are never more of these than slots.  The bytes that it
has counted are those that all jobs have reported, but for the reports that are still under way.
-/

namespace GameArchive
namespace Sharing

/-! ## What was reported -/

/-- The bytes that a step reports for a job that counts. -/
def Step.bytesFor (counts : Nat → Bool) : Step → Nat
  | .report number bytes => if counts number then bytes.toNat else 0
  | _ => 0

/-- The bytes that some steps report for the jobs that count. -/
def reportedFor (counts : Nat → Bool) (steps : List Step) : Nat :=
  steps.foldr (fun step total => step.bytesFor counts + total) 0

/-- The bytes that some steps report. -/
def reported (steps : List Step) : Nat :=
  reportedFor (fun _ => true) steps

/-- The bytes that some steps report for one job. -/
def reportedBy (number : Nat) (steps : List Step) : Nat :=
  reportedFor (fun found => found == number) steps

theorem reportedFor_concat (counts : Nat → Bool) (steps : List Step) (step : Step) :
    reportedFor counts (steps ++ [step]) = reportedFor counts steps + step.bytesFor counts := by
  induction steps with
  | nil => exact Nat.add_comm _ _
  | cons first steps ih =>
      rw [List.cons_append, reportedFor, List.foldr_cons]
      change first.bytesFor counts + reportedFor counts (steps ++ [step]) = _
      rw [ih, ← Nat.add_assoc]
      rfl

theorem reportedBy_report (number found : Nat) (bytes : UInt64) (steps : List Step) :
    reportedBy number (steps ++ [.report found bytes]) =
      reportedBy number steps + if found = number then bytes.toNat else 0 := by
  simp only [reportedBy, reportedFor_concat, Step.bytesFor, beq_iff_eq]

/-- The bytes of some reports, as a limiter adds them up. -/
def sum (reports : List UInt64) : UInt64 :=
  reports.foldr (fun bytes total => bytes + total) 0

theorem sum_eraseIdx {reports : List UInt64} {position : Nat} {bytes : UInt64}
    (there : reports[position]? = some bytes) :
    bytes + sum (reports.eraseIdx position) = sum reports := by
  induction reports generalizing position with
  | nil => cases there
  | cons first reports ih =>
      cases position with
      | zero =>
          cases there
          rfl
      | succ position =>
          rw [List.eraseIdx_cons_succ]
          change bytes + (first + sum (reports.eraseIdx position)) = first + sum reports
          rw [← ih there, ← UInt64.add_assoc, UInt64.add_comm bytes, UInt64.add_assoc]

/-! ## What a step does -/

section Steps

variable {sharing after : Sharing} {number : Nat}

theorem mem_of_lookup {α : Type} {entries : List (Nat × α)} {value : α}
    (found : entries.lookup number = some value) : (number, value) ∈ entries := by
  obtain ⟨before, behind, rfl, -⟩ := List.lookup_eq_some_iff.mp found
  exact List.mem_append_right _ (List.mem_cons_self ..)

/-- A look finds the token cancelled, or all slots taken, or it takes a slot. -/
theorem look?_eq_some {outcome : Attempt} (looked : sharing.look? number = some (outcome, after)) :
    ∃ asked, sharing.requests.lookup number = some asked ∧
      ((asked.token ∈ sharing.cancelled ∧ outcome = .cancelled ∧
          after = sharing.withdraw number) ∨
        (asked.token ∉ sharing.cancelled ∧ outcome = .waiting ∧ after = sharing) ∨
        (asked.token ∉ sharing.cancelled ∧
          sharing.limiter.runningJobs < sharing.limiter.maximumJobs ∧
          ∃ job limiter, outcome = .begun job limiter ∧ job.reported = 0 ∧
            limiter = { sharing.limiter with runningJobs := sharing.limiter.runningJobs + 1 } ∧
            after = sharing.grant number job limiter)) := by
  obtain ⟨asked, found, looked⟩ := Option.bind_eq_some_iff.mp looked
  refine ⟨asked, found, ?_⟩
  unfold Limiter.attempt at looked
  by_cases cancelled : asked.token ∈ sharing.cancelled
  · rw [if_pos (List.contains_iff_mem.mpr cancelled)] at looked
    cases looked
    exact Or.inl ⟨cancelled, rfl, rfl⟩
  · rw [if_neg fun contained => cancelled (List.contains_iff_mem.mp contained)] at looked
    by_cases full : sharing.limiter.isFull
    · rw [if_pos full] at looked
      cases looked
      exact Or.inr (Or.inl ⟨cancelled, rfl, rfl⟩)
    · rw [if_neg full] at looked
      cases looked
      have free : sharing.limiter.runningJobs < sharing.limiter.maximumJobs :=
        Nat.lt_of_not_le fun taken => full (decide_eq_true taken)
      exact Or.inr (Or.inr ⟨cancelled, free, _, _, rfl, rfl, rfl, rfl⟩)

theorem drop?_eq_some (dropped : sharing.drop? number = some after) :
    ∃ job, (number, job) ∈ sharing.jobs ∧
      after = { sharing with
        limiter := sharing.limiter.release
        jobs := sharing.jobs.eraseP fun entry => entry.1 = number } := by
  obtain ⟨job, found, equal⟩ := Option.bind_eq_some_iff.mp dropped
  cases equal
  exact ⟨job, mem_of_lookup found, rfl⟩

theorem report?_eq_some {bytes : UInt64} (counted : sharing.report? number bytes = some after) :
    number ∈ sharing.jobs.map Prod.fst ∧
      after = { sharing with
        jobs := sharing.jobs.map (countFor number bytes)
        reports := bytes :: sharing.reports } := by
  obtain ⟨job, found, equal⟩ := Option.bind_eq_some_iff.mp counted
  cases equal
  exact ⟨List.mem_map_of_mem (mem_of_lookup found), rfl⟩

end Steps

/-! ## What all steps keep -/

/-- The numbers of the jobs and of the requests. -/
def numbers (sharing : Sharing) : List Nat :=
  sharing.jobs.map Prod.fst ++ sharing.requests.map Prod.fst

/-- A shared limiter that has come to its state by some steps. -/
structure Sound (maximumJobs : Nat) (steps : List Step) (sharing : Sharing) : Prop where
  maximum : sharing.limiter.maximumJobs = max 1 maximumJobs
  running : sharing.limiter.runningJobs = sharing.jobs.length
  bounded : sharing.jobs.length ≤ max 1 maximumJobs
  distinct : sharing.numbers.Nodup
  known : ∀ number ∈ sharing.numbers, number < sharing.next
  /-- What the limiter has not counted yet is still under way. -/
  total : sharing.limiter.totalBytes + sum sharing.reports = UInt64.ofNat (reported steps)
  own : ∀ entry ∈ sharing.jobs, entry.2.reported = UInt64.ofNat (reportedBy entry.1 steps)
  /-- Who has not begun has not reported. -/
  silent : ∀ number, number ∈ sharing.requests.map Prod.fst ∨ sharing.next ≤ number →
    reportedBy number steps = 0

theorem sound_start (maximumJobs : Nat) : Sound maximumJobs [] (start maximumJobs) where
  maximum := rfl
  running := rfl
  bounded := Nat.zero_le _
  distinct := List.nodup_nil
  known := fun _ => nofun
  total := rfl
  own := fun _ => nofun
  silent := fun _ _ => rfl

namespace Sound

variable {maximumJobs : Nat} {steps : List Step} {sharing after : Sharing} {number : Nat}
  (sound : Sound maximumJobs steps sharing)

include sound

/-- A step that reports nothing adds nothing to what was reported. -/
theorem concat {step : Step} (quiet : ∀ counts, step.bytesFor counts = 0) :
    Sound maximumJobs (steps ++ [step]) sharing := by
  have same : ∀ counts, reportedFor counts (steps ++ [step]) = reportedFor counts steps := by
    intro counts
    rw [reportedFor_concat, quiet, Nat.add_zero]
  exact {
    sound with
    total := by rw [reported, same]; exact sound.total
    own := fun entry member => by rw [reportedBy, same]; exact sound.own entry member
    silent := fun number absent => by rw [reportedBy, same]; exact sound.silent number absent }

theorem request (asked : SlotRequest) : Sound maximumJobs steps (sharing.request asked) where
  maximum := sound.maximum
  running := sound.running
  bounded := sound.bounded
  distinct := by
    have fresh : sharing.next ∉ sharing.numbers := fun member =>
      Nat.lt_irrefl _ (sound.known _ member)
    exact List.nodup_middle.mpr (List.nodup_cons.mpr ⟨fresh, sound.distinct⟩)
  known := by
    intro number member
    rcases List.mem_cons.mp (List.perm_middle.mem_iff.mp member) with rfl | old
    · exact Nat.lt_succ_self _
    · exact Nat.lt_succ_of_lt (sound.known number old)
  total := sound.total
  own := sound.own
  silent := by
    rintro number (requested | unborn)
    · rcases List.mem_cons.mp requested with rfl | old
      · exact sound.silent _ (Or.inr (Nat.le_refl _))
      · exact sound.silent number (Or.inl old)
    · exact sound.silent number (Or.inr (Nat.le_of_succ_le unborn))

theorem withdraw (number : Nat) : Sound maximumJobs steps (sharing.withdraw number) := by
  have fewer : ((sharing.withdraw number).requests.map Prod.fst).Sublist
      (sharing.requests.map Prod.fst) := List.filter_sublist.map _
  have numbers : (sharing.withdraw number).numbers.Sublist sharing.numbers :=
    (List.Sublist.refl _).append fewer
  exact {
    sound with
    distinct := sound.distinct.sublist numbers
    known := fun other member => sound.known other (numbers.subset member)
    silent := fun other absent => sound.silent other (absent.imp_left (fewer.subset ·)) }

theorem grant {asked : SlotRequest} (waiting : sharing.requests.lookup number = some asked)
    (free : sharing.limiter.runningJobs < sharing.limiter.maximumJobs) {job : Job}
    (unreported : job.reported = 0) :
    Sound maximumJobs steps (sharing.grant number job
      { sharing.limiter with runningJobs := sharing.limiter.runningJobs + 1 }) := by
  have requested : number ∈ sharing.requests.map Prod.fst :=
    List.mem_map_of_mem (f := Prod.fst) (mem_of_lookup waiting)
  have withdrawn := sound.withdraw number
  have fresh : number ∉ (sharing.withdraw number).numbers := by
    intro member
    rcases List.mem_append.mp member with job | other
    · exact List.disjoint_of_nodup_append sound.distinct job requested
    · obtain ⟨entry, among, rfl⟩ := List.mem_map.mp other
      exact of_decide_eq_true (List.mem_filter.mp among).2 rfl
  exact {
    maximum := sound.maximum
    running := congrArg (· + 1) sound.running
    bounded := by
      rw [sound.running, sound.maximum] at free
      exact free
    distinct := List.nodup_cons.mpr ⟨fresh, withdrawn.distinct⟩
    known := by
      intro other member
      rcases List.mem_cons.mp member with rfl | old
      · exact sound.known _ (List.mem_append_right _ requested)
      · exact withdrawn.known other old
    total := sound.total
    own := by
      intro entry member
      rcases List.mem_cons.mp member with rfl | old
      · rw [unreported, sound.silent _ (Or.inl requested)]
        rfl
      · exact sound.own entry old
    silent := withdrawn.silent }

theorem look {outcome : Attempt} (looked : sharing.look? number = some (outcome, after)) :
    Sound maximumJobs steps after := by
  obtain ⟨asked, waiting, ⟨-, -, rfl⟩ | ⟨-, -, rfl⟩ | ⟨-, free, job, _, -, unreported, rfl, rfl⟩⟩ :=
    look?_eq_some looked
  · exact sound.withdraw number
  · exact sound
  · exact sound.grant waiting free unreported

theorem drop_count (dropped : sharing.drop? number = some after) :
    after.limiter.runningJobs + 1 = sharing.limiter.runningJobs ∧
      after.jobs.length + 1 = sharing.jobs.length := by
  obtain ⟨job, member, rfl⟩ := drop?_eq_some dropped
  have length := List.length_eraseP_of_mem (p := fun entry => decide (entry.1 = number)) member
    (decide_eq_true rfl)
  have positive := List.length_pos_of_mem member
  refine ⟨Nat.sub_add_cancel ?_, ?_⟩
  · rw [sound.running]
    exact positive
  · rw [length]
    exact Nat.sub_add_cancel positive

theorem drop (dropped : sharing.drop? number = some after) : Sound maximumJobs steps after := by
  have counts := sound.drop_count dropped
  obtain ⟨job, -, rfl⟩ := drop?_eq_some dropped
  have fewer : (sharing.jobs.eraseP fun entry => entry.1 = number).Sublist sharing.jobs :=
    List.eraseP_sublist
  have numbers : ((sharing.jobs.eraseP fun entry => entry.1 = number).map Prod.fst ++
      sharing.requests.map Prod.fst).Sublist sharing.numbers :=
    (fewer.map _).append (List.Sublist.refl _)
  exact {
    maximum := sound.maximum
    running := by
      have running := sound.running
      omega
    bounded := Nat.le_trans fewer.length_le sound.bounded
    distinct := sound.distinct.sublist numbers
    known := fun other member => sound.known other (numbers.subset member)
    total := sound.total
    own := fun entry member => sound.own entry (fewer.subset member)
    silent := sound.silent }

/-- A report is counted by its job, and is under way to the limiter. -/
theorem report {bytes : UInt64} (counted : sharing.report? number bytes = some after) :
    Sound maximumJobs (steps ++ [.report number bytes]) after := by
  obtain ⟨reporting, rfl⟩ := report?_eq_some counted
  have numbers : (sharing.jobs.map (countFor number bytes)).map Prod.fst ++
      sharing.requests.map Prod.fst = sharing.numbers := by
    rw [List.map_map]
    rfl
  exact {
    maximum := sound.maximum
    running := by rw [List.length_map]; exact sound.running
    bounded := by rw [List.length_map]; exact sound.bounded
    distinct := by rw [Sharing.numbers, numbers]; exact sound.distinct
    known := by rw [Sharing.numbers, numbers]; exact sound.known
    total := by
      rw [reported, reportedFor_concat, Step.bytesFor, if_pos rfl, UInt64.ofNat_add,
        UInt64.ofNat_toNat]
      change sharing.limiter.totalBytes + (bytes + sum sharing.reports) = _
      rw [UInt64.add_comm bytes, ← UInt64.add_assoc, sound.total]
      rfl
    own := by
      intro entry member
      obtain ⟨⟨found, job⟩, among, rfl⟩ := List.mem_map.mp member
      have before : job.reported = UInt64.ofNat (reportedBy found steps) := sound.own _ among
      unfold countFor
      rw [reportedBy_report]
      by_cases mine : found = number
      · rw [if_pos mine, if_pos mine.symm, UInt64.ofNat_add, UInt64.ofNat_toNat, ← before]
        rfl
      · rw [if_neg mine, if_neg fun same => mine same.symm, Nat.add_zero]
        exact before
    silent := by
      intro other absent
      -- A request and a number that is not given out yet are nobody's job.
      have another : number ≠ other := by
        rintro rfl
        rcases absent with requested | unborn
        · exact List.disjoint_of_nodup_append sound.distinct reporting requested
        · exact Nat.not_lt_of_le unborn (sound.known _ (List.mem_append_left _ reporting))
      rw [reportedBy_report, if_neg another, Nat.add_zero]
      exact sound.silent other absent }

theorem settle {position : Nat} (settled : sharing.settle? position = some after) :
    Sound maximumJobs steps after := by
  obtain ⟨bytes, there, equal⟩ := Option.bind_eq_some_iff.mp settled
  cases equal
  refine { sound with total := ?_ }
  change sharing.limiter.totalBytes + bytes + sum (sharing.reports.eraseIdx position) = _
  rw [UInt64.add_assoc, sum_eraseIdx there]
  exact sound.total

theorem step {step : Step} (made : sharing.after? step = some after) :
    Sound maximumJobs (steps ++ [step]) after := by
  cases step with
  | request asked =>
      cases made
      exact (sound.request asked).concat fun _ => rfl
  | look number =>
      obtain ⟨⟨outcome, after⟩, looked, rfl⟩ := Option.map_eq_some_iff.mp made
      exact (sound.look looked).concat fun _ => rfl
  | drop number => exact (sound.drop made).concat fun _ => rfl
  | report number bytes => exact sound.report made
  | settle position => exact (sound.settle made).concat fun _ => rfl
  | cancel token =>
      cases made
      have same : Sound maximumJobs (steps ++ [.cancel token]) sharing :=
        sound.concat fun _ => rfl
      exact { same with }

theorem run {more : List Step} (ran : sharing.run? more = some after) :
    Sound maximumJobs (steps ++ more) after := by
  induction more generalizing steps sharing with
  | nil =>
      cases ran
      rwa [List.append_nil]
  | cons first more ih =>
      obtain ⟨middle, made, ran⟩ := Option.bind_eq_some_iff.mp ran
      have further := ih (sound.step made) ran
      rwa [List.append_assoc] at further

end Sound

/-! ## Cancelled requests -/

/-- A request that holds no slot, and whose token is cancelled if it still waits. -/
structure Barred (number : Nat) (sharing : Sharing) : Prop where
  known : number < sharing.next
  slotless : number ∉ sharing.jobs.map Prod.fst
  cancelled : ∀ asked, (number, asked) ∈ sharing.requests → asked.token ∈ sharing.cancelled

theorem Sound.barred {maximumJobs : Nat} {steps : List Step} {sharing : Sharing} {number : Nat}
    {asked : SlotRequest} (sound : Sound maximumJobs steps sharing)
    (waiting : sharing.requests.lookup number = some asked)
    (cancelled : asked.token ∈ sharing.cancelled) : Barred number sharing := by
  have member := mem_of_lookup waiting
  have requested : number ∈ sharing.requests.map Prod.fst :=
    List.mem_map_of_mem (f := Prod.fst) member
  refine ⟨sound.known _ (List.mem_append_right _ requested),
    fun job => List.disjoint_of_nodup_append sound.distinct job requested, ?_⟩
  intro other among
  have one := List.inj_on_of_nodup_map (List.Nodup.of_append_right sound.distinct) member among rfl
  rwa [← (Prod.mk.inj one).2]

namespace Barred

variable {number : Nat} {sharing after : Sharing} (barred : Barred number sharing)

include barred

theorem withdraw (other : Nat) : Barred number (sharing.withdraw other) :=
  { barred with
    cancelled := fun asked member =>
      barred.cancelled asked (List.mem_of_mem_filter member) }

theorem outcome {outcome : Attempt} (looked : sharing.look? number = some (outcome, after)) :
    outcome = .cancelled := by
  obtain ⟨asked, waiting, ⟨-, equal, -⟩ | ⟨live, -⟩ | ⟨live, -⟩⟩ := look?_eq_some looked
  · exact equal
  · exact absurd (barred.cancelled asked (mem_of_lookup waiting)) live
  · exact absurd (barred.cancelled asked (mem_of_lookup waiting)) live

theorem look {other : Nat} {outcome : Attempt}
    (looked : sharing.look? other = some (outcome, after)) : Barred number after := by
  obtain ⟨asked, waiting, ⟨-, -, rfl⟩ | ⟨-, -, rfl⟩ | ⟨live, -, job, _, -, -, rfl, rfl⟩⟩ :=
    look?_eq_some looked
  · exact barred.withdraw other
  · exact barred
  · refine { barred.withdraw other with slotless := ?_ }
    intro member
    rcases List.mem_cons.mp member with rfl | old
    · exact live (barred.cancelled asked (mem_of_lookup waiting))
    · exact barred.slotless old

theorem step {step : Step} (made : sharing.after? step = some after) : Barred number after := by
  cases step with
  | request asked =>
      cases made
      refine ⟨Nat.lt_succ_of_lt barred.known, barred.slotless, ?_⟩
      intro other member
      rcases List.mem_cons.mp member with fresh | old
      · exact absurd (Prod.mk.inj fresh).1 (Nat.ne_of_lt barred.known)
      · exact barred.cancelled other old
  | look other =>
      obtain ⟨⟨outcome, after⟩, looked, rfl⟩ := Option.map_eq_some_iff.mp made
      exact barred.look looked
  | drop other =>
      obtain ⟨job, -, rfl⟩ := drop?_eq_some made
      have fewer : (sharing.jobs.eraseP fun entry => entry.1 = other).Sublist sharing.jobs :=
        List.eraseP_sublist
      exact { barred with slotless := fun member => barred.slotless ((fewer.map _).subset member) }
  | report other bytes =>
      obtain ⟨-, rfl⟩ := report?_eq_some made
      refine { barred with slotless := ?_ }
      rw [List.map_map]
      exact barred.slotless
  | settle position =>
      obtain ⟨bytes, -, equal⟩ := Option.bind_eq_some_iff.mp made
      cases equal
      exact { barred with }
  | cancel token =>
      cases made
      exact { barred with
        cancelled := fun asked member =>
          List.mem_cons_of_mem _ (barred.cancelled asked member) }

theorem run {steps : List Step} (ran : sharing.run? steps = some after) : Barred number after := by
  induction steps generalizing sharing with
  | nil =>
      cases ran
      exact barred
  | cons first steps ih =>
      obtain ⟨middle, made, ran⟩ := Option.bind_eq_some_iff.mp ran
      exact ih (barred.step made) ran

end Barred

/-! ## Every interleaving -/

/-- However the accesses of any number of clients follow each other: as many slots are taken as
there are jobs, and not more than there are slots; a job that is dropped frees a slot that was
taken; a cancelled request takes nothing, neither at the look that finds it cancelled nor ever after
its token was cancelled; and the sums are those of the reports. -/
theorem slots_of_run {maximumJobs : Nat} {steps : List Step} {sharing : Sharing}
    (ran : (start maximumJobs).run? steps = some sharing) :
    sharing.limiter.runningJobs = sharing.jobs.length ∧
      sharing.limiter.runningJobs ≤ max 1 maximumJobs ∧
      (sharing.jobs.map Prod.fst).Nodup ∧
      (∀ number after, sharing.drop? number = some after →
        after.limiter.runningJobs + 1 = sharing.limiter.runningJobs ∧
          after.jobs.length + 1 = sharing.jobs.length) ∧
      (∀ number after, sharing.look? number = some (.cancelled, after) →
        after.limiter = sharing.limiter ∧ after.jobs = sharing.jobs ∧
          after.reports = sharing.reports) ∧
      (∀ number asked, sharing.requests.lookup number = some asked →
        asked.token ∈ sharing.cancelled →
        ∀ more after, sharing.run? more = some after →
          number ∉ after.jobs.map Prod.fst ∧
            ∀ outcome later, after.look? number = some (outcome, later) →
              outcome = .cancelled) ∧
      (sharing.reports = [] →
        sharing.limiter.totalBytes.toNat = reported steps % UInt64.size) ∧
      ∀ number job, (number, job) ∈ sharing.jobs →
        job.reported.toNat = reportedBy number steps % UInt64.size := by
  have sound : Sound maximumJobs steps sharing := (sound_start maximumJobs).run ran
  refine ⟨sound.running, sound.running ▸ sound.bounded,
    List.Nodup.of_append_left sound.distinct, fun _ _ => sound.drop_count, ?_, ?_, ?_, ?_⟩
  · intro number after looked
    obtain ⟨_, -, ⟨-, -, rfl⟩ | ⟨-, equal, -⟩ | ⟨-, -, _, _, equal, -⟩⟩ := look?_eq_some looked
    · exact ⟨rfl, rfl, rfl⟩
    · cases equal
    · cases equal
  · intro number asked waiting cancelled more after later
    have barred := (sound.barred waiting cancelled).run later
    exact ⟨barred.slotless, fun _ _ looked => barred.outcome looked⟩
  · intro settled
    have total := sound.total
    rw [settled, show sum [] = 0 from rfl, UInt64.add_zero] at total
    rw [total]
    exact UInt64.toNat_ofNat'
  · intro number job member
    have own : job.reported = _ := sound.own _ member
    rw [own]
    exact UInt64.toNat_ofNat'

/-- While one job holds the only slot, the token of the next request is cancelled. -/
theorem slots_of_run_oneSlot :
    let steps : List Step := [.request ⟨"first token", "first", 10⟩,
      .request ⟨"second token", "second", 5⟩, .look 0, .look 1, .report 0 7,
      .cancel "second token", .settle 0]
    let sharing : Sharing := {
      limiter := ⟨1, 1, 7⟩
      requests := [(1, ⟨"second token", "second", 5⟩)]
      jobs := [(0, ⟨"first", 10, 7⟩)]
      reports := []
      cancelled := ["second token"]
      next := 2 }
    (start 0).run? steps = some sharing ∧ sharing.limiter.runningJobs ≤ 1 ∧
      sharing.limiter.totalBytes.toNat = reported steps % UInt64.size ∧
      ∀ more after, sharing.run? more = some after → 1 ∉ after.jobs.map Prod.fst := by
  intro steps sharing
  have ran : (start 0).run? steps = some sharing := by decide +kernel
  obtain ⟨-, bounded, -, -, -, barred, total, -⟩ := slots_of_run ran
  exact ⟨ran, bounded, total rfl, fun more after later =>
    (barred 1 ⟨"second token", "second", 5⟩ (by decide) (by decide) more after later).1⟩

theorem run?_append {sharing middle after : Sharing} {steps more : List Step}
    (first : sharing.run? steps = some middle) (further : middle.run? more = some after) :
    sharing.run? (steps ++ more) = some after := by
  unfold run? at first further ⊢
  rw [List.foldlM_append, first]
  exact further

end Sharing

/-! ## Clients with names -/

namespace Clients

/-- What some clients share comes, by some steps, to what others share. -/
def Leads (before after : Clients) : Prop :=
  ∃ steps, before.sharing.run? steps = some after.sharing

namespace Leads

theorem of_eq {before after : Clients} (same : after.sharing = before.sharing) :
    before.Leads after :=
  ⟨[], congrArg some same.symm⟩

theorem trans {first second third : Clients} (before : first.Leads second)
    (behind : second.Leads third) : first.Leads third := by
  obtain ⟨steps, ran⟩ := before
  obtain ⟨more, further⟩ := behind
  exact ⟨steps ++ more, Sharing.run?_append ran further⟩

/-- Clients see the counts of a shared limiter that came about step by step. -/
theorem sound {maximumJobs : Nat} {clients : Clients}
    (leads : (Clients.start maximumJobs).Leads clients) :
    ∃ steps, Sharing.Sound maximumJobs steps clients.sharing := by
  obtain ⟨steps, ran⟩ := leads
  exact ⟨steps, (Sharing.sound_start maximumJobs).run ran⟩

end Leads

variable (clients : Clients)

theorem leads_cancel (name : String) : clients.Leads (clients.cancel name) :=
  ⟨[.cancel (clients.token name)], rfl⟩

theorem sharing_withToken (name : String) :
    (clients.withToken name).sharing = clients.sharing := by
  unfold withToken
  split <;> rfl

theorem leads_cloneToken (name copy : String) :
    clients.Leads (clients.cloneToken name copy).2 :=
  Leads.of_eq (clients.sharing_withToken name)

theorem leads_drop (name : String) : clients.Leads (clients.drop name).2 := by
  unfold drop
  split
  · exact Leads.of_eq rfl
  · next after dropped =>
      obtain ⟨number, -, dropped⟩ := Option.bind_eq_some_iff.mp dropped
      obtain ⟨sharing, made, equal⟩ := Option.bind_eq_some_iff.mp dropped
      cases equal
      exact ⟨[.drop number], by rw [Sharing.run?, List.foldlM_cons, Sharing.after?, made]; rfl⟩

theorem leads_hold (name : String) (number : Nat) : clients.Leads (clients.hold name number) :=
  (clients.leads_drop name).trans (Leads.of_eq rfl)

theorem leads_look {asked : SlotRequest} {outcome : Attempt} {sharing : Sharing}
    (looked : (clients.sharing.request asked).look? clients.sharing.next =
      some (outcome, sharing)) : clients.Leads { clients with sharing } := by
  refine ⟨[.request asked, .look clients.sharing.next], ?_⟩
  have made : (clients.sharing.request asked).after? (.look clients.sharing.next) =
      some sharing := by
    rw [Sharing.after?, looked]
    rfl
  rw [Sharing.run?, List.foldlM_cons, Sharing.after?, Option.bind_eq_bind, Option.bind_some,
    List.foldlM_cons, made]
  rfl

theorem leads_attempt (name token description : String) (size : UInt64) :
    clients.Leads (clients.attempt name token description size).2 := by
  have named : clients.Leads (clients.withToken token) :=
    Leads.of_eq (clients.sharing_withToken token)
  unfold attempt
  simp only
  split
  · next looked =>
      exact named.trans ((leads_look _ looked).trans (leads_hold _ name _))
  · next looked => exact named.trans (leads_look _ looked)
  · exact named

theorem leads_attemptWaiting (name token description : String) (size : UInt64)
    (other : String) :
    clients.Leads (clients.attemptWaiting name token description size other).2.2 := by
  have dropped := clients.leads_drop other
  unfold attemptWaiting
  split
  · next after equal =>
      rw [equal] at dropped
      exact dropped.trans (leads_attempt _ name token description size)
  · next after equal =>
      rw [equal] at dropped
      have tried := dropped.trans (after.leads_attempt name token description size)
      have cancelled := tried.trans (leads_cancel _ token)
      simp only
      split
      · exact cancelled.trans (leads_attempt _ name token description size)
      · exact cancelled

theorem leads_report (name : String) (bytes : UInt64) :
    clients.Leads (clients.report name bytes).2 := by
  unfold report
  simp only
  split
  · exact Leads.of_eq rfl
  · next sum after counted =>
      obtain ⟨number, -, counted⟩ := Option.bind_eq_some_iff.mp counted
      obtain ⟨job, -, counted⟩ := Option.bind_eq_some_iff.mp counted
      obtain ⟨middle, made, counted⟩ := Option.bind_eq_some_iff.mp counted
      obtain ⟨sharing, settled, equal⟩ := Option.bind_eq_some_iff.mp counted
      cases equal
      refine ⟨[.report number bytes, .settle 0], ?_⟩
      rw [Sharing.run?, List.foldlM_cons, Sharing.after?, made, Option.bind_eq_bind,
        Option.bind_some, List.foldlM_cons, Sharing.after?, settled]
      rfl

end Clients
end GameArchive
