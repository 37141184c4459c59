import GameArchive.Proofs.Extraction.Course

/-!
# What an extraction gathers

Values can be changed where they are projected or when the extraction is done.  A projection may
therefore give a record of what it does, which an extraction gathers without doing anything else.

What is gathered stands under different paths, was projected from a wanted entry of its path, and is
as much as is expected.
-/

namespace GameArchive

variable {α β : Type}

namespace Results

def map (change : α → β) (results : Results α) : Results β :=
  List.map (fun found => (found.1, change found.2)) results

/-- The paths under which something has been gathered. -/
def paths (results : Results α) : List String :=
  List.map Prod.fst results

theorem map_insert (change : α → β) (results : Results α) (path : String) (value : α) :
    (results.insert path value).map change = (results.map change).insert path (change value) := by
  simp only [map, insert, List.map_append, List.filter_map, List.map_singleton]
  rfl

/-- Different paths, each with a value that has a property. -/
structure Sound (property : String → α → Prop) (results : Results α) : Prop where
  distinct : results.paths.Nodup
  each : ∀ found ∈ results, property found.1 found.2

theorem Sound.insert {property : String → α → Prop} {results : Results α} {path : String}
    {value : α} (sound : Sound property results) (holds : property path value) :
    Sound property (results.insert path value) := by
  have others : (results.filter fun found => decide (found.1 ≠ path)).Sublist results :=
    List.filter_sublist
  constructor
  · rw [paths, Results.insert, List.map_append, List.map_singleton, List.nodup_append]
    refine ⟨sound.distinct.sublist (others.map Prod.fst), by simp, ?_⟩
    rintro _ member _ last rfl
    obtain ⟨found, kept, rfl⟩ := List.mem_map.mp member
    rw [List.mem_singleton] at last
    exact of_decide_eq_true (List.mem_filter.mp kept).2 last
  · intro found member
    rcases List.mem_append.mp member with before | last
    · exact sound.each found (others.subset before)
    · rw [List.mem_singleton.mp last]
      exact holds

end Results

def Projection.map (change : α → β) (project : Projection α) : Projection β :=
  fun entry => change <$> project entry

/-- The request whose values are changed where they are projected. -/
def Request.map (change : α → β) (request : Request α) : Request β :=
  ⟨request.filter, request.project.map change, request.only?⟩

namespace Extraction

theorem project_map (change : α → β) (request : Request α) (archive : String) (entry : Entry) :
    project (request.map change) archive entry = change <$> project request archive entry := by
  funext session
  have projected : (request.map change).project entry session.toSurroundings =
      (change <$> request.project entry) session.toSurroundings :=
    rfl
  rw [Outcome.state_map] at projected ⊢
  rw [project, project, projected]
  cases request.project entry session.toSurroundings <;> rfl

theorem gather_map (change : α → β) (request : Request α) (archive : String)
    (results : Results α) (offers : List Offer) :
    gather (request.map change) archive (results.map change) offers =
      Results.map change <$> gather request archive results offers := by
  induction offers generalizing results with
  | nil => rfl
  | cons offer offers ih =>
      funext session
      have further : ∀ next, gather (request.map change) archive (results.map change) offers next =
          (Results.map change <$> gather request archive results offers) next :=
        fun next => congrFun (ih results) next
      rw [Outcome.state_map, gather_cons, gather_cons, project_map, Outcome.state_map, further,
        Outcome.state_map]
      by_cases cancelled : session.isCancelled
      · rw [if_pos cancelled, if_pos cancelled]
      · rw [if_neg cancelled, if_neg cancelled]
        by_cases wanted : request.filter offer.entry.path
        · have alsoWanted : (request.map change).filter offer.entry.path = true := wanted
          rw [if_pos wanted, if_pos alsoWanted]
          cases offer.size with
          | error failure => rfl
          | ok size =>
              simp only
              cases project request archive offer.entry (session.asking offer.entry.path) with
              | error failure after => rfl
              | ok value after =>
                  simp only
                  rw [← Results.map_insert, ih, Outcome.state_map]
        · have alsoUnwanted : ¬ (request.map change).filter offer.entry.path = true := wanted
          rw [if_neg wanted, if_neg alsoUnwanted]

theorem withSlot_map (change : α → β) (archive : String) (action : Extraction α) :
    withSlot archive (change <$> action) = change <$> withSlot archive action := by
  funext session
  rw [Outcome.state_map, withSlot, withSlot]
  cases session.limiter.attempt session.isCancelled ("Extracting " ++ archive) 0 with
  | waiting => rfl
  | cancelled => rfl
  | begun job limiter =>
      simp only
      rw [Outcome.state_map]
      cases action { session with limiter } <;> rfl

theorem closing_map (change : α → β) (close : Session → Session) (action : Extraction α) :
    closing close (change <$> action) = change <$> closing close action := by
  funext session
  rw [Outcome.state_map, closing, closing, Outcome.state_map]
  cases action session <;> rfl

theorem withScratch_map (change : α → β) (archive : String) (base : Location) (root : String)
    (action : Location → Extraction α) :
    (withScratch archive base root fun scratch => change <$> action scratch) =
      change <$> withScratch archive base root action := by
  simp only [withScratch_eq, map_bind, closing_map]

theorem Course.follow_map (course : Course) (change : α → β) (request : Request α)
    (archive : String) :
    course.follow (request.map change) archive =
      Results.map change <$> course.follow request archive := by
  have finished : ∀ results : Results α,
      course.finish (results.map change) = Results.map change <$> course.finish results := by
    intro results
    unfold Course.finish
    split <;> rfl
  have gathered : gather (request.map change) archive [] course.offers =
      Results.map change <$> gather request archive [] course.offers :=
    gather_map change request archive [] course.offers
  rw [Course.follow, Course.follow, ← closing_map, gathered, bind_map_left, map_bind]
  simp only [finished]

theorem visit_map (change : α → β) (request : Request α) (archive : String) (entry : Entry)
    (location : Location) :
    visit (request.map change) archive entry location =
      Option.map (Prod.map id change) <$> visit request archive entry location := by
  funext session
  rw [Outcome.state_map, visit_eq, visit_eq, project_map, Outcome.state_map]
  by_cases cancelled : session.isCancelled
  · rw [if_pos cancelled, if_pos cancelled]
  · rw [if_neg cancelled, if_neg cancelled]
    by_cases wanted : request.filter entry.path
    · have alsoWanted : (request.map change).filter entry.path = true := wanted
      rw [if_pos wanted, if_pos alsoWanted]
      cases project request archive entry (session.asking entry.path) <;> rfl
    · have alsoUnwanted : ¬ (request.map change).filter entry.path = true := wanted
      rw [if_neg wanted, if_neg alsoUnwanted]
      rfl

theorem visitAll_map (change : α → β) (request : Request α) (archive : String)
    (results : Results α) (failure? : Option ExtractError) (files : List (Entry × Location))
    (session : Session) :
    visitAll (request.map change) archive (results.map change) failure? files session =
      match visitAll request archive results failure? files session with
      | .ok found after => .ok (found.map change) after
      | .error failure after => .error failure after := by
  induction files generalizing results failure? session with
  | nil => cases failure? <;> rfl
  | cons file files ih =>
      obtain ⟨entry, location⟩ := file
      rw [visitAll, visitAll, visit_map, Outcome.state_map]
      cases visit request archive entry location session with
      | error failure after => exact ih results _ after
      | ok found after =>
          cases found with
          | none => exact ih results failure? after
          | some found =>
              simp only [Option.map_some, Prod.map, id]
              rw [← Results.map_insert]
              exact ih _ failure? after

theorem fromArchiver_map (extractor : Extractor) (change : α → β) (request : Request α)
    (origin : Origin) (source : Source) :
    fromArchiver extractor (request.map change) origin source =
      Results.map change <$> fromArchiver extractor request origin source := by
  funext session
  rw [Outcome.state_map, fromArchiver_eq, fromArchiver_eq]
  cases extractor.findArchiver session.tree with
  | error failure => rfl
  | ok archiver =>
      have visited : ∀ scratch,
          arriving archiver (request.map change) origin source scratch >>=
              visiting (request.map change) source.name =
            Results.map change <$> (arriving archiver request origin source scratch >>=
              visiting request source.name) := by
        intro scratch
        rw [map_bind]
        congr 1
        funext files after
        refine (visitAll_map change request source.name [] none files after).trans ?_
        rw [Outcome.state_map, visiting]
        cases visitAll request source.name [] none files after <;> rfl
      simp only [visited, withScratch_map, Outcome.state_map]

/-- A change of the values in an extraction is a change of what the extraction gives. -/
theorem extract_map (extractor : Extractor) (change : α → β) (request : Request α)
    (origin : Origin) :
    extractor.extract (request.map change) origin =
      Results.map change <$> extractor.extract request origin := by
  have carried : ∀ source strategy, carryOut extractor (request.map change) origin source strategy =
      Results.map change <$> carryOut extractor request origin source strategy := by
    intro source strategy
    cases opens : opening? extractor origin source strategy with
    | some opening =>
        rw [carryOut_eq extractor _ origin source opens,
          carryOut_eq extractor _ origin source opens, ← withSlot_map, map_bind]
        simp only [Course.follow_map]
    | none =>
        -- Only the archiver visits files that have been unpacked outside of the slot.
        cases strategy with
        | archiver => exact fromArchiver_map extractor change request origin source
        | bethesda | btar | omod => cases opens
  have checked : ∀ results : Results α,
      ofExcept (checkCount origin.name (request.map change).only? (results.map change)) =
        Results.map change <$> ofExcept (checkCount origin.name request.only? results) := by
    intro results
    have length : (results.map change).length = results.length := List.length_map _
    change ofExcept (checkCount origin.name request.only? _) = _
    unfold checkCount
    cases request.only? with
    | none => rfl
    | some only =>
        simp only [length]
        split <;> rfl
  funext session
  rw [Outcome.state_map, extract_eq, extract_eq]
  cases origin.load session.tree extractor.workingDirectory with
  | error failure => rfl
  | ok source =>
      simp only
      cases Strategy.select (ContainerKind.sniff (Stream.ofBytes source.bytes)).1 origin.name with
      | error failure => rfl
      | ok strategy =>
          simp only
          rw [carried, bind_map_left]
          simp only [checked]
          rw [← map_bind, Outcome.state_map]

/-! ## What results are like -/

/-- Whatever an action succeeds with has a property. -/
def Ensures (property : α → Prop) (action : Extraction α) : Prop :=
  ∀ session value after, action session = .ok value after → property value

theorem ensures_true (action : Extraction α) : Ensures (fun _ => True) action :=
  fun _ _ _ _ => trivial

theorem ensures_pure {property : α → Prop} {value : α} (holds : property value) :
    Ensures property (pure value) := by
  intro session found after succeeded
  cases succeeded
  exact holds

theorem Ensures.bind {first : Extraction α} {next : α → Extraction β} {between : α → Prop}
    {property : β → Prop} (before : Ensures between first)
    (behind : ∀ value, between value → Ensures property (next value)) :
    Ensures property (first >>= next) := by
  intro session value after succeeded
  obtain ⟨middle, state, started, rest⟩ := Outcome.state_bind_eq_ok_iff.mp succeeded
  exact behind middle (before session middle state started) state value after rest

theorem Ensures.closing {property : α → Prop} {action : Extraction α}
    (ensures : Ensures property action) (close : Session → Session) :
    Ensures property (closing close action) := by
  intro session value after succeeded
  obtain ⟨ended, outcome, -⟩ := closing_eq_ok_iff.mp succeeded
  exact ensures session value ended outcome

theorem Ensures.withSlot {property : α → Prop} {action : Extraction α}
    (ensures : Ensures property action) (archive : String) :
    Ensures property (withSlot archive action) := by
  intro session value after succeeded
  rcases withSlot_cases session with ⟨-, refused⟩ | ⟨-, held⟩
  · rw [refused] at succeeded
    cases succeeded
  · rw [held] at succeeded
    exact ensures.closing releaseSlot _ value after succeeded

section Sound

variable {request : Request α} {property : String → α → Prop}
  (each : ∀ entry before value after, request.filter entry.path = true →
    request.project entry before = .ok value after → property entry.path value)
include each

theorem property_of_project {archive : String} {entry : Entry} {session after : Session}
    {value : α} (wanted : request.filter entry.path = true)
    (projected : project request archive entry session = .ok value after) :
    property entry.path value := by
  unfold project at projected
  split at projected
  · next outcome =>
      cases projected
      exact each _ _ _ _ wanted outcome
  · cases projected

theorem ensures_gather (archive : String) {results : Results α} (sound : results.Sound property)
    (offers : List Offer) :
    Ensures (Results.Sound property) (gather request archive results offers) := by
  induction offers generalizing results with
  | nil => exact ensures_pure sound
  | cons offer offers ih =>
      intro session found after gathered
      obtain ⟨-, step⟩ := gather_cons_eq_ok gathered
      split at step
      · next wanted =>
          obtain ⟨size, value, next, -, projected, rest⟩ := step
          exact ih (sound.insert (property_of_project each wanted projected)) _ _ _ rest
      · exact ih sound _ _ _ step

theorem ensures_visitAll (archive : String) {results : Results α}
    (sound : results.Sound property) (failure? : Option ExtractError)
    (files : List (Entry × Location)) :
    Ensures (Results.Sound property) (visitAll request archive results failure? files) := by
  induction files generalizing results failure? with
  | nil =>
      intro session found after visited
      cases failure? with
      | some failure => cases visited
      | none =>
          cases visited
          exact sound
  | cons file files ih =>
      obtain ⟨entry, location⟩ := file
      intro session found after visited
      rw [visitAll, visit_eq] at visited
      split at visited
      · next outcome => exact ih sound failure? _ _ _ visited
      · next path value next outcome =>
          refine ih (sound.insert ?_) failure? _ _ _ visited
          split at outcome
          · cases outcome
          · split at outcome
            · next wanted =>
                split at outcome
                · cases outcome
                · next projected =>
                    cases outcome
                    exact property_of_project each wanted projected
            · cases outcome
      · next failure next outcome => exact ih sound _ _ _ _ visited

theorem ensures_carryOut (extractor : Extractor) (origin : Origin) (source : Source)
    (strategy : Strategy) :
    Ensures (Results.Sound property) (carryOut extractor request origin source strategy) := by
  have nothing : Results.Sound property [] := ⟨List.nodup_nil, by simp⟩
  cases opens : opening? extractor origin source strategy with
  | some opening =>
      rw [carryOut_eq extractor _ origin source opens]
      refine ((ensures_true opening).bind fun course _ => ?_).withSlot source.name
      refine ((ensures_gather each source.name nothing course.offers).bind
        fun results sound => ?_).closing course.close
      unfold Course.finish
      split
      · intro session found after impossible
        cases impossible
      · exact ensures_pure sound
  | none =>
      cases strategy with
      | bethesda | btar | omod => cases opens
      | archiver =>
          intro session results after extracted
          rw [carryOut, fromArchiver_eq] at extracted
          split at extracted
          · cases extracted
          · next archiver located =>
              rw [withScratch_eq] at extracted
              refine ((ensures_true _).bind fun scratch _ => ?_) session results after extracted
              refine ((ensures_true _).bind fun files _ => ?_).closing (removeScratch scratch)
              exact ensures_visitAll each source.name nothing none files

end Sound

/-- The results of an extraction stand under different paths, come from projections of wanted
entries, and are as many as have to be there. -/
theorem extract_sound (property : String → α → Prop) {request : Request α}
    {extractor : Extractor} {origin : Origin} {session after : Session} {results : Results α}
    (each : ∀ entry before value after, request.filter entry.path = true →
      request.project entry before = .ok value after → property entry.path value)
    (extracted : extractor.extract request origin session = .ok results after) :
    results.Sound property ∧
      ∀ only, request.only? = some only → results.length = only.eraseDups.length := by
  rw [extract_eq] at extracted
  split at extracted
  · cases extracted
  · next source loaded =>
      split at extracted
      · cases extracted
      · next strategy selected =>
          obtain ⟨found, middle, carried, checked⟩ := Outcome.state_bind_eq_ok_iff.mp extracted
          have sound := ensures_carryOut each extractor origin source strategy _ _ _ carried
          unfold checkCount at checked
          cases required : request.only? with
          | none =>
              rw [required] at checked
              cases checked
              exact ⟨sound, nofun⟩
          | some only =>
              simp only [required] at checked
              split at checked
              · next counted =>
                  cases checked
                  refine ⟨sound, fun other same => ?_⟩
                  rw [← Option.some.inj same]
                  exact counted
              · cases checked

end Extraction
end GameArchive
