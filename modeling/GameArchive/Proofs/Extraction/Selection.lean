import GameArchive.Proofs.Extraction.Standing

/-!
# Selective extractions

A projection that only looks at the files gives for every entry the same value in whatever
extraction it is called.  An extraction of fewer entries therefore gives a part of what an
extraction of more entries gives, and an entry that is not wanted has no part in it.
-/

namespace GameArchive

/-- A projection that looks at an entry and the files, and changes nothing. -/
def Projection.observing {α : Type} (view : Entry → FileTree → Except ProjectionFailure α) :
    Projection α := fun entry surroundings =>
  match view entry surroundings.tree with
  | .ok value => .ok value surroundings
  | .error failure => .error failure surroundings

namespace Results

variable {α : Type}

/-- The results under the paths that satisfy a filter. -/
def restrict (filter : String → Bool) (results : Results α) : Results α :=
  results.filter fun found => filter found.1

theorem restrict_insert_of_wanted {filter : String → Bool} {path : String}
    (wanted : filter path = true) (results : Results α) (value : α) :
    (results.insert path value).restrict filter = (results.restrict filter).insert path value := by
  simp [restrict, insert, wanted, List.filter_filter, Bool.and_comm]

theorem restrict_insert_of_unwanted {filter : String → Bool} {path : String}
    (unwanted : ¬ filter path = true) (results : Results α) (value : α) :
    (results.insert path value).restrict filter = results.restrict filter := by
  -- Whatever stood under the path did not satisfy the filter either.
  have others : ∀ found ∈ results,
      (filter found.1 && decide (found.1 ≠ path)) = filter found.1 := by
    rintro ⟨found, stored⟩ -
    by_cases same : found = path
    · simp [same, unwanted]
    · simp [same]
  rw [restrict, insert, List.filter_append, List.filter_filter, List.filter_congr others,
    List.filter_cons_of_neg (by exact unwanted), List.filter_nil, List.append_nil, restrict]

end Results

namespace Extraction

variable {α : Type} {archive : String} {only? : Option (List String)}
  {view : Entry → FileTree → Except ProjectionFailure α}

/-- One step of a loop whose projection only looks at the files. -/
theorem gather_observing_cons (filter : String → Bool) (archive : String) (results : Results α)
    (offer : Offer) (offers : List Offer) {session : Session}
    (standing : session.isCancelled = false) :
    gather ⟨filter, .observing view, only?⟩ archive results (offer :: offers) session =
      if filter offer.entry.path then
        match offer.size with
        | .error failure => .error failure (session.asking offer.entry.path)
        | .ok size =>
            match view offer.entry session.tree with
            | .error cause =>
                .error (cause.ofEntry archive offer.entry.path) (session.asking offer.entry.path)
            | .ok value =>
                gather ⟨filter, .observing view, only?⟩ archive
                  (results.insert offer.entry.path value) offers
                  ((session.asking offer.entry.path).counting (UInt64.ofNat size))
      else
        gather ⟨filter, .observing view, only?⟩ archive results offers
          (session.asking offer.entry.path) := by
  have seen : project ⟨filter, .observing view, only?⟩ archive offer.entry
      (session.asking offer.entry.path) =
        match view offer.entry session.tree with
        | .ok value => .ok value (session.asking offer.entry.path)
        | .error cause =>
            .error (cause.ofEntry archive offer.entry.path) (session.asking offer.entry.path) := by
    simp only [project, Projection.observing, Session.asking]
    cases view offer.entry session.tree <;> rfl
  rw [gather_cons_of_standing _ _ _ _ _ standing, seen]
  cases view offer.entry session.tree <;> rfl

section Loop

variable {narrow wide : String → Bool}

/-- The two loops see the same files in front of every entry, although they have asked, counted and
gathered different things. -/
theorem gather_narrow (implied : ∀ path, narrow path → wide path) {results found : Results α}
    {offers : List Offer} {first second after : Session}
    (alike : second.toSurroundings = first.toSurroundings)
    (gathered : gather ⟨wide, .observing view, only?⟩ archive results offers first =
      .ok found after) :
    ∃ further, gather ⟨narrow, .observing view, only?⟩ archive (results.restrict narrow) offers
      second = .ok (found.restrict narrow) further := by
  induction offers generalizing results first second with
  | nil =>
      cases gathered
      exact ⟨second, rfl⟩
  | cons offer offers ih =>
      obtain ⟨standing, -⟩ := gather_cons_eq_ok gathered
      have secondStanding := (congrArg Surroundings.isCancelled alike).trans standing
      rw [gather_observing_cons _ _ _ _ _ standing] at gathered
      rw [gather_observing_cons _ _ _ _ _ secondStanding, alike]
      by_cases wanted : wide offer.entry.path
      · rw [if_pos wanted] at gathered
        cases sized : offer.size with
        | error failure =>
            rw [sized] at gathered
            cases gathered
        | ok size =>
            cases seen : view offer.entry first.tree with
            | error cause =>
                rw [sized, seen] at gathered
                cases gathered
            | ok value =>
                rw [sized, seen] at gathered
                by_cases narrowly : narrow offer.entry.path
                · simp only [if_pos narrowly, ← Results.restrict_insert_of_wanted narrowly]
                  refine ih ?_ gathered
                  exact alike
                · rw [if_neg narrowly,
                    ← Results.restrict_insert_of_unwanted narrowly results value]
                  refine ih ?_ gathered
                  exact alike
      · rw [if_neg wanted] at gathered
        rw [if_neg fun narrowly => wanted (implied _ narrowly)]
        refine ih ?_ gathered
        exact alike

/-- A loop that fails although the request stands has failed with a wanted entry. -/
theorem gather_error {filter : String → Bool} {results : Results α} {offers : List Offer}
    {session after : Session} {failure : ExtractError} (standing : session.isCancelled = false)
    (failed : gather ⟨filter, .observing view, only?⟩ archive results offers session =
      .error failure after) :
    ∃ offer ∈ offers, filter offer.entry.path = true ∧
      (offer.size = .error failure ∨
        ∃ cause, view offer.entry session.tree = .error cause ∧
          failure = cause.ofEntry archive offer.entry.path) := by
  induction offers generalizing results session with
  | nil => cases failed
  | cons offer offers ih =>
      rw [gather_observing_cons _ _ _ _ _ standing] at failed
      have later : ∀ (next : Session) {results : Results α},
          next.toSurroundings = session.toSurroundings →
          gather ⟨filter, .observing view, only?⟩ archive results offers next =
            .error failure after →
          ∃ other ∈ offer :: offers, filter other.entry.path = true ∧
            (other.size = .error failure ∨
              ∃ cause, view other.entry session.tree = .error cause ∧
                failure = cause.ofEntry archive other.entry.path) := by
        intro next results alike failed
        obtain ⟨other, member, rest⟩ :=
          ih ((congrArg Surroundings.isCancelled alike).trans standing) failed
        rw [alike] at rest
        exact ⟨other, List.mem_cons_of_mem _ member, rest⟩
      by_cases wanted : filter offer.entry.path
      · rw [if_pos wanted] at failed
        cases sized : offer.size with
        | error cause =>
            rw [sized] at failed
            cases failed
            exact ⟨offer, List.mem_cons_self, wanted, .inl sized⟩
        | ok size =>
            cases seen : view offer.entry session.tree with
            | error cause =>
                rw [sized, seen] at failed
                cases failed
                exact ⟨offer, List.mem_cons_self, wanted, .inr ⟨cause, seen, rfl⟩⟩
            | ok value =>
                rw [sized, seen] at failed
                exact later ((session.asking _).counting _) rfl failed
      · rw [if_neg wanted] at failed
        exact later (session.asking _) rfl failed

theorem gather_nothing {results : Results α} {offers : List Offer} {session : Session}
    (standing : session.isCancelled = false) :
    ∃ after, gather ⟨fun _ => false, .observing view, only?⟩ archive results offers session =
      .ok results after := by
  induction offers generalizing session with
  | nil => exact ⟨session, rfl⟩
  | cons offer offers ih =>
      rw [gather_observing_cons _ _ _ _ _ standing, if_neg Bool.false_ne_true]
      apply ih
      exact standing

end Loop

section Whole

variable {extractor : Extractor} {origin : Origin} {session : Session} {source : Source}
  {opening : Extraction Course}

/-- An extraction that fails would have failed without any entry wanted, or it fails with a wanted
one. -/
theorem InProcess.extract_eq_error
    (inProcess : InProcess extractor origin session source opening) {filter : String → Bool}
    {failure : ExtractError} {after : Session}
    (failed : extractor.extract ⟨filter, .observing view, none⟩ origin session =
      .error failure after) :
    (∃ other, extractor.extract ⟨fun _ => false, .observing view, none⟩ origin session =
        .error failure other) ∨
      ∃ course opened, opening session.holding = .ok course opened ∧
        ∃ offer ∈ course.offers, filter offer.entry.path = true ∧
          (offer.size = .error failure ∨
            ∃ cause, view offer.entry opened.tree = .error cause ∧
              failure = cause.ofEntry source.name offer.entry.path) := by
  rcases withSlot_cases session with ⟨-, refused⟩ | ⟨⟨standing, free⟩, -⟩
  · left
    rw [inProcess.extract_eq, refused] at failed ⊢
    exact ⟨after, failed⟩
  · rw [inProcess.extract_eq_closing standing free] at failed ⊢
    have opens := congrArg Prod.fst (inProcess.keeps session.holding)
    cases outcome : opening session.holding with
    | error cause ended =>
        left
        rw [outcome] at failed
        exact ⟨after, failed⟩
    | ok course opened =>
        rw [outcome] at failed opens
        have still : opened.isCancelled = false := opens.trans standing
        obtain ⟨ended, followed, -⟩ := closing_eq_error_iff.mp failed
        obtain ⟨_, -, gathered | ⟨met, -⟩⟩ := Course.follow_eq_error_iff.mp followed
        · right
          exact ⟨course, opened, rfl, gather_error still gathered⟩
        · left
          obtain ⟨passed, gathered⟩ : ∃ passed, gather ⟨fun _ => false, .observing view, none⟩
              source.name [] course.offers opened = .ok [] passed :=
            gather_nothing still
          exact ⟨_, closing_eq_error_iff.mpr ⟨_, Course.follow_eq_error_iff.mpr
            ⟨passed, rfl, .inr ⟨met, [], gathered⟩⟩, rfl⟩⟩

/-- The results of an extraction of fewer entries are those of an extraction of more entries under
the paths that are wanted.  Nothing is done with an entry that is not wanted, and none makes the
extraction fail. -/
theorem extract_selected (inProcess : InProcess extractor origin session source opening)
    (view : Entry → FileTree → Except ProjectionFailure α) (narrow wide : String → Bool)
    (implied : ∀ path, narrow path → wide path) :
    (∀ results after,
      extractor.extract ⟨wide, .observing view, none⟩ origin session = .ok results after →
      ∃ further, extractor.extract ⟨narrow, .observing view, none⟩ origin session =
        .ok (results.restrict narrow) further) ∧
    (∀ project : Projection α,
      (∀ entry surroundings, narrow entry.path →
        project entry surroundings = Projection.observing view entry surroundings) →
      extractor.extract ⟨narrow, project, none⟩ origin session =
        extractor.extract ⟨narrow, .observing view, none⟩ origin session) ∧
    ∀ failure after,
      extractor.extract ⟨narrow, .observing view, none⟩ origin session = .error failure after →
      (∃ other, extractor.extract ⟨fun _ => false, .observing view, none⟩ origin session =
        .error failure other) ∨
      ∃ course opened, opening session.holding = .ok course opened ∧
        ∃ offer ∈ course.offers, narrow offer.entry.path = true ∧
          (offer.size = .error failure ∨
            ∃ cause, view offer.entry opened.tree = .error cause ∧
              failure = cause.ofEntry source.name offer.entry.path) := by
  refine ⟨?_, ?_, fun failure after failed => inProcess.extract_eq_error failed⟩
  · intro results after extracted
    obtain ⟨standing, free, course, opened, ended, opens, finished, gathered, -⟩ :=
      inProcess.extract_eq_ok_iff.mp extracted
    obtain ⟨further, narrowed⟩ := gather_narrow implied rfl gathered
    exact ⟨_, inProcess.extract_eq_ok_iff.mpr
      ⟨standing, free, course, opened, further, opens, finished, narrowed, rfl⟩⟩
  · intro project agree
    apply congrFun
    apply extract_congr
    intro entry surroundings wanted _
    exact agree entry surroundings wanted

/-- The contents of the second of two records. -/
theorem extract_selected_secondRecord :
    let bytes : Bytes := [0x42, 0x54, 0x41, 0x52, 1, 0, 4, 0, 1, 0, 0x61, 1, 0, 0, 0, 0, 0, 0, 0, 7,
      1, 0, 0x62, 2, 0, 0, 0, 0, 0, 0, 0, 8, 9]
    let extractor : Extractor := ⟨[], "tmp", fun _ => .error .system⟩
    let session : Session := ⟨⟨.empty, false⟩, .ofMaximum 1, ⟨0, 0⟩, []⟩
    let contents : Entry → FileTree → Except ProjectionFailure Bytes := fun entry _ =>
      match entry with
      | .btar source record _ => .ok (source.bytes.window record.offset record.length)
      | .native .. | .bethesda .. => .error (.io .system)
    ∃ further, extractor.extract ⟨fun path => path = "b", .observing contents, none⟩
      (.memory ⟨"pack.btar", bytes⟩ 0) session = .ok [("b", [8, 9])] further := by
  intro bytes extractor session contents
  have inProcess : InProcess extractor (.memory ⟨"pack.btar", bytes⟩ 0) session
      ⟨"pack.btar", bytes⟩ _ := ⟨rfl, .btar, rfl, rfl⟩
  have all : ∃ after, extractor.extract ⟨fun _ => true, .observing contents, none⟩
      (.memory ⟨"pack.btar", bytes⟩ 0) session = .ok [("a", [7]), ("b", [8, 9])] after :=
    ⟨_, rfl⟩
  obtain ⟨after, extracted⟩ := all
  have selected := extract_selected inProcess contents (fun path => path = "b") (fun _ => true)
    fun _ _ => rfl
  exact selected.1 _ _ extracted

end Whole

end Extraction
end GameArchive
