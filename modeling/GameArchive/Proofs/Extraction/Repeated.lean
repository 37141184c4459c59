import GameArchive.Proofs.Extraction.Requested
import GameArchive.Proofs.Extraction.Selection
import Mathlib.Data.List.Induction

/-!
# Entries of one path

Nothing keeps an archive from holding several entries of one path.  An extraction projects all of
them that are wanted, and what it makes of a later one takes the place of what it made of an earlier
one.  So its results are as many as the paths of the projected entries, and there are fewer of them
than projected entries exactly when a path is repeated.
-/

namespace GameArchive

variable {α : Type}

/-! ## Values under repeated paths -/

theorem Extraction.length_eraseDups_eq_iff {texts : List String} :
    texts.eraseDups.length = texts.length ↔ texts.Nodup := by
  have inside : texts.eraseDups ⊆ texts := fun text member => List.mem_eraseDups.mp member
  constructor
  · intro counted
    have same := (List.subperm_of_subset (nodup_eraseDups texts) inside).perm_of_length_le
      (Nat.le_of_eq counted.symm)
    exact same.nodup_iff.mp (nodup_eraseDups texts)
  · intro distinct
    refine ((List.perm_ext_iff_of_nodup (nodup_eraseDups texts) distinct).mpr
      fun text => ?_).length_eq
    exact List.mem_eraseDups

namespace Results

/-- Values that were made one after the other, each put under its path in the place of an earlier
one. -/
def collect (results : Results α) (made : List (String × α)) : Results α :=
  made.foldl (fun results found => results.insert found.1 found.2) results

@[simp] theorem collect_nil (results : Results α) : results.collect [] = results :=
  rfl

theorem collect_cons (results : Results α) (path : String) (value : α)
    (made : List (String × α)) :
    results.collect ((path, value) :: made) = (results.insert path value).collect made :=
  rfl

theorem collect_concat (results : Results α) (made : List (String × α)) (found : String × α) :
    results.collect (made ++ [found]) = (results.collect made).insert found.1 found.2 := by
  rw [collect, List.foldl_append]
  rfl

theorem lookup_insert (results : Results α) (path other : String) (value : α) :
    (results.insert path value).lookup other =
      if other = path then some value else results.lookup other :=
  FileTree.lookup_filter_concat results value

/-- What stands under a path is what was made last for it. -/
theorem lookup_collect (made : List (String × α)) (path : String) :
    (collect [] made).lookup path = made.reverse.lookup path := by
  induction made using List.reverseRecOn with
  | nil => rfl
  | append_singleton made found ih =>
      rw [collect_concat, lookup_insert, ih, List.reverse_append, List.reverse_singleton,
        List.singleton_append, List.lookup_cons]
      by_cases same : path = found.1
      · rw [if_pos same, beq_iff_eq.mpr same]
      · rw [if_neg same, beq_eq_false_iff_ne.mpr same]

theorem mem_paths_insert {results : Results α} {path other : String} {value : α} :
    other ∈ (results.insert path value).paths ↔ other = path ∨ other ∈ results.paths := by
  have known : ∀ results : Results α, other ∈ results.paths ↔ results.lookup other ≠ none := by
    intro results
    rw [ne_eq, List.lookup_eq_none_iff]
    simp only [paths, List.mem_map, bne_iff_ne, not_forall, not_not, exists_prop]
    constructor
    · rintro ⟨found, member, same⟩
      exact ⟨found, member, same.symm⟩
    · rintro ⟨found, member, same⟩
      exact ⟨found, member, same.symm⟩
  rw [known, known, lookup_insert]
  split
  · next same => simp [same]
  · next different => simp [different]

theorem mem_paths_collect {results : Results α} {made : List (String × α)} {path : String} :
    path ∈ (results.collect made).paths ↔ path ∈ results.paths ∨ path ∈ paths made := by
  induction made generalizing results with
  | nil => simp [paths]
  | cons found made ih =>
      have first : paths (found :: made) = found.1 :: paths made := rfl
      rw [collect_cons, ih, mem_paths_insert, first, List.mem_cons, or_assoc, or_left_comm]

theorem Sound.collect {property : String → α → Prop} {results : Results α}
    (sound : Sound property results) {made : List (String × α)}
    (each : ∀ found ∈ made, property found.1 found.2) :
    Sound property (results.collect made) := by
  induction made generalizing results with
  | nil => exact sound
  | cons found made ih =>
      rw [List.forall_mem_cons] at each
      exact ih (sound.insert each.1) each.2

theorem nodup_paths_collect (made : List (String × α)) : (collect [] made).paths.Nodup := by
  have nothing : Sound (fun _ (_ : α) => True) [] := ⟨List.nodup_nil, by simp⟩
  exact (nothing.collect fun _ _ => trivial).distinct

theorem length_collect (made : List (String × α)) :
    (collect [] made).length = (paths made).eraseDups.length := by
  have same : (collect [] made).paths.Perm (paths made).eraseDups := by
    refine (List.perm_ext_iff_of_nodup (nodup_paths_collect made)
      (Extraction.nodup_eraseDups _)).mpr fun path => ?_
    rw [mem_paths_collect, List.mem_eraseDups]
    simp [paths]
  have lengths := same.length_eq
  rwa [paths, List.length_map] at lengths

end Results

/-! ## Loops that keep everything -/

namespace Extraction

/-- Does with the wanted ones among the offered entries what is to be done with them, and gives all
that is made, each under the path of its entry. -/
def projectAll (request : Request α) (archive : String) :
    List Offer → Extraction (List (String × α))
  | [] => pure []
  | offer :: offers => do
      checkCancelled archive
      let path := offer.entry.path
      if ← ask request path then
        let size ← ofExcept offer.size
        let value ← project request archive offer.entry
        report (UInt64.ofNat size)
        let made ← projectAll request archive offers
        pure ((path, value) :: made)
      else
        projectAll request archive offers

theorem projectAll_cons (request : Request α) (archive : String) (offer : Offer)
    (offers : List Offer) (session : Session) :
    projectAll request archive (offer :: offers) session =
      if session.isCancelled then .error (.cancelled archive) session
      else if request.filter offer.entry.path then
        match offer.size with
        | .error failure => .error failure (session.asking offer.entry.path)
        | .ok size =>
            match project request archive offer.entry (session.asking offer.entry.path) with
            | .error failure after => .error failure after
            | .ok value after =>
                (((offer.entry.path, value) :: ·) <$> projectAll request archive offers)
                  (after.counting (UInt64.ofNat size))
      else projectAll request archive offers (session.asking offer.entry.path) := by
  rw [projectAll]
  exact state_offer request archive offer
    (fun value => ((offer.entry.path, value) :: ·) <$> projectAll request archive offers) _ session

/-- A loop that puts each value under its path gathers what one that keeps everything makes. -/
theorem gather_eq_collect (request : Request α) (archive : String) (results : Results α)
    (offers : List Offer) :
    gather request archive results offers =
      results.collect <$> projectAll request archive offers := by
  induction offers generalizing results with
  | nil => rfl
  | cons offer offers ih =>
      funext session
      rw [Outcome.state_map, gather_cons, projectAll_cons]
      split
      · rfl
      · split
        · cases offer.size with
          | error failure => rfl
          | ok size =>
              cases project request archive offer.entry (session.asking offer.entry.path) with
              | error failure after => rfl
              | ok value after =>
                  simp only
                  rw [ih, Outcome.state_map, Outcome.state_map]
                  cases projectAll request archive offers
                    (after.counting (UInt64.ofNat size)) <;> rfl
        · rw [ih, Outcome.state_map]

theorem paths_projectAll {request : Request α} {archive : String} {offers : List Offer}
    {session after : Session} {made : List (String × α)}
    (projected : projectAll request archive offers session = .ok made after) :
    Results.paths made = (offers.map fun offer => offer.entry.path).filter request.filter := by
  induction offers generalizing session made with
  | nil =>
      cases projected
      rfl
  | cons offer offers ih =>
      rw [projectAll_cons] at projected
      split at projected
      · cases projected
      · split at projected
        · next wanted =>
            split at projected
            · cases projected
            · split at projected
              · cases projected
              · next size sized value next done =>
                  rw [Outcome.state_map] at projected
                  split at projected
                  · next later ended further =>
                      cases projected
                      rw [List.map_cons, List.filter_cons_of_pos wanted, ← ih further]
                      rfl
                  · cases projected
        · next unwanted =>
            rw [List.map_cons, List.filter_cons_of_neg unwanted]
            exact ih projected

/-- An extraction in process projects the entries that pass the filter one after the other, and its
results are what it has made of the last one of each path.  They are as many as the different
paths, and so as many as the projected entries exactly when no path is repeated. -/
theorem extract_last_of_each_path {extractor : Extractor} {origin : Origin}
    {session after : Session} {source : Source} {opening : Extraction Course}
    (inProcess : InProcess extractor origin session source opening) {filter : String → Bool}
    {project : Projection α} {results : Results α}
    (extracted : extractor.extract ⟨filter, project, none⟩ origin session = .ok results after) :
    ∃ course opened made ended, opening session.holding = .ok course opened ∧
      projectAll ⟨filter, project, none⟩ source.name course.offers opened = .ok made ended ∧
      Results.paths made = (course.offers.map fun offer => offer.entry.path).filter filter ∧
      results.paths.Nodup ∧
      (∀ path, results.lookup path = made.reverse.lookup path) ∧
      results.length = (Results.paths made).eraseDups.length ∧
      (results.length = made.length ↔ (Results.paths made).Nodup) := by
  obtain ⟨-, -, course, opened, ended, opens, -, gathered, -⟩ :=
    inProcess.extract_eq_ok_iff.mp extracted
  rw [gather_eq_collect, Outcome.state_map] at gathered
  split at gathered
  · next made _ projected =>
      cases gathered
      refine ⟨course, opened, made, _, opens, projected, paths_projectAll projected,
        Results.nodup_paths_collect made, Results.lookup_collect made,
        Results.length_collect made, ?_⟩
      rw [Results.length_collect, ← length_eraseDups_eq_iff]
      rw [Results.paths, List.length_map]
  · cases gathered

/-- Four records, one of which is not wanted; the path of the last one is also that of the first. -/
theorem extract_last_of_each_path_fourRecords :
    let bytes : Bytes := [0x42, 0x54, 0x41, 0x52, 1, 0, 4, 0,
      1, 0, 0x61, 1, 0, 0, 0, 0, 0, 0, 0, 7, 1, 0, 0x62, 1, 0, 0, 0, 0, 0, 0, 0, 8,
      1, 0, 0x63, 1, 0, 0, 0, 0, 0, 0, 0, 9, 2, 0, 0x2F, 0x61, 1, 0, 0, 0, 0, 0, 0, 0, 10]
    let extractor : Extractor := ⟨[], "tmp", fun _ => .error .system⟩
    let session : Session := ⟨⟨.empty, false⟩, .ofMaximum 1, ⟨0, 0⟩, []⟩
    let contents : Entry → FileTree → Except ProjectionFailure Bytes := fun entry _ =>
      match entry with
      | .btar source record _ => .ok (source.bytes.window record.offset record.length)
      | .native .. | .bethesda .. => .error (.io .system)
    ∃ (results : Results Bytes) (after : Session) (made : List (String × Bytes)),
      extractor.extract ⟨fun path => path ≠ "c", .observing contents, none⟩
        (.memory ⟨"pack.btar", bytes⟩ 0) session = .ok results after ∧
      results = [("b", [8]), ("a", [10])] ∧
      Results.paths made = ["a", "b", "a"] ∧ results.length ≠ made.length := by
  intro bytes extractor session contents
  have inProcess : InProcess extractor (.memory ⟨"pack.btar", bytes⟩ 0) session
      ⟨"pack.btar", bytes⟩ _ := ⟨rfl, .btar, rfl, rfl⟩
  have gathered : Outcome.value? (extractor.extract
      ⟨fun path => path ≠ "c", .observing contents, none⟩
      (.memory ⟨"pack.btar", bytes⟩ 0) session) = some [("b", [8]), ("a", [10])] := by
    decide +kernel
  obtain ⟨after, extracted⟩ := Outcome.exists_of_value?_eq_some gathered
  obtain ⟨course, opened, made, _, opens, -, paths, -, -, -, whole⟩ :=
    extract_last_of_each_path inProcess extracted
  cases opens
  have repeated : Results.paths made = ["a", "b", "a"] := by
    rw [paths]
    decide +kernel
  refine ⟨_, after, made, extracted, rfl, repeated, fun same => ?_⟩
  have distinct := whole.mp same
  rw [repeated] at distinct
  exact absurd distinct (by decide)

/-- Two records of one path, both of which are wanted, and one result. -/
theorem extract_fewer_than_wanted :
    let bytes : Bytes := [0x42, 0x54, 0x41, 0x52, 1, 0, 4, 0,
      1, 0, 0x61, 1, 0, 0, 0, 0, 0, 0, 0, 7, 1, 0, 0x61, 1, 0, 0, 0, 0, 0, 0, 0, 8]
    let source : Source := ⟨"pack.btar", bytes⟩
    let extractor : Extractor := ⟨[], "tmp", fun _ => .error .system⟩
    let session : Session := ⟨⟨.empty, false⟩, .ofMaximum 1, ⟨0, 0⟩, []⟩
    let contents : Entry → FileTree → Except ProjectionFailure Bytes := fun entry _ =>
      match entry with
      | .btar source record _ => .ok (source.bytes.window record.offset record.length)
      | .native .. | .bethesda .. => .error (.io .system)
    let request : Request Bytes := ⟨fun _ => true, .observing contents, none⟩
    Strategy.select (ContainerKind.sniff (Stream.ofBytes bytes)).1 source.name = .ok .btar ∧
    (∃ after, extractor.extract request (.memory source 0) session = .ok [("a", [8])] after) ∧
    (∃ after, projectAll request source.name
      ((Btar.records source).records.map (offerOfRecord source 0)) session.holding =
        .ok [("a", [7]), ("a", [8])] after) ∧
    (Btar.records source).failure = none :=
  ⟨rfl, ⟨_, rfl⟩, ⟨_, rfl⟩, rfl⟩

end Extraction
end GameArchive
