import GameArchive.Extraction.Gather
import GameArchive.Proofs.Outcome

/-!
# The course of an extraction

Game archives, BTARs and packages are read in process, and one loop comes to their entries.  What
stands in front of the loop, the reading of a directory or the unpacking of a package, does not
look at the request; the loop and the end of the extraction follow from what it has found.

What a projection would do with entries that are not wanted, or to a request that has been
cancelled, does not matter to an extraction of any kind.
-/

namespace GameArchive

namespace Session

/-- The session in which the filter has been asked about one more path. -/
def asking (session : Session) (path : String) : Session :=
  { session with asked := session.asked ++ [path] }

/-- The session in which some more bytes have been reported. -/
def counting (session : Session) (bytes : UInt64) : Session :=
  { session with
    limiter := session.limiter.count bytes
    progress := session.progress.add bytes }

/-- The session while the extraction holds its slot. -/
def holding (session : Session) : Session :=
  { session with
    limiter := { session.limiter with runningJobs := session.limiter.runningJobs + 1 } }

/-- What an extraction may not change in front of its loop. -/
def standing (session : Session) : Bool × Nat :=
  (session.isCancelled, session.limiter.runningJobs)

end Session

namespace Extraction

/-! ## The loop -/

section Loop

variable {α : Type} {archive : String}

/-- What a loop does with an offer in front of the others: it goes on in one way with what it has
made of the entry, and in another when the entry is not wanted. -/
theorem state_offer {β : Type} (request : Request α) (archive : String) (offer : Offer)
    (next : α → Extraction β) (skip : Extraction β) (session : Session) :
    (do
      checkCancelled archive
      let path := offer.entry.path
      if ← ask request path then
        let size ← ofExcept offer.size
        let value ← project request archive offer.entry
        report (UInt64.ofNat size)
        next value
      else
        skip) session =
      if session.isCancelled then .error (.cancelled archive) session
      else if request.filter offer.entry.path then
        match offer.size with
        | .error failure => .error failure (session.asking offer.entry.path)
        | .ok size =>
            match project request archive offer.entry (session.asking offer.entry.path) with
            | .error failure after => .error failure after
            | .ok value after => next value (after.counting (UInt64.ofNat size))
      else skip (session.asking offer.entry.path) := by
  rw [Outcome.state_bind, checkCancelled]
  by_cases cancelled : session.isCancelled
  · simp only [if_pos cancelled]
  · simp only [if_neg cancelled]
    rw [Outcome.state_bind, ask]
    by_cases wanted : request.filter offer.entry.path
    · simp only [if_pos wanted]
      rw [Outcome.state_bind, ← Session.asking]
      cases offer.size with
      | error failure => rfl
      | ok size =>
          change (project request archive offer.entry >>= _) _ = _
          rw [Outcome.state_bind]
          cases project request archive offer.entry (session.asking offer.entry.path) <;> rfl
    · simp only [if_neg wanted]
      rfl

theorem gather_cons (request : Request α) (archive : String) (results : Results α)
    (offer : Offer) (offers : List Offer) (session : Session) :
    gather request archive results (offer :: offers) session =
      if session.isCancelled then .error (.cancelled archive) session
      else if request.filter offer.entry.path then
        match offer.size with
        | .error failure => .error failure (session.asking offer.entry.path)
        | .ok size =>
            match project request archive offer.entry (session.asking offer.entry.path) with
            | .error failure after => .error failure after
            | .ok value after =>
                gather request archive (results.insert offer.entry.path value) offers
                  (after.counting (UInt64.ofNat size))
      else gather request archive results offers (session.asking offer.entry.path) := by
  rw [gather]
  exact state_offer request archive offer
    (fun value => gather request archive (results.insert offer.entry.path value) offers) _ session

theorem gather_cons_of_standing (request : Request α) (archive : String) (results : Results α)
    (offer : Offer) (offers : List Offer) {session : Session}
    (standing : session.isCancelled = false) :
    gather request archive results (offer :: offers) session =
      if request.filter offer.entry.path then
        match offer.size with
        | .error failure => .error failure (session.asking offer.entry.path)
        | .ok size =>
            match project request archive offer.entry (session.asking offer.entry.path) with
            | .error failure after => .error failure after
            | .ok value after =>
                gather request archive (results.insert offer.entry.path value) offers
                  (after.counting (UInt64.ofNat size))
      else gather request archive results offers (session.asking offer.entry.path) := by
  rw [gather_cons, standing, if_neg Bool.false_ne_true]

/-- A loop that succeeds has not found the request cancelled in front of any entry. -/
theorem gather_cons_eq_ok {request : Request α} {results found : Results α} {offer : Offer}
    {offers : List Offer} {session after : Session}
    (gathered : gather request archive results (offer :: offers) session = .ok found after) :
    session.isCancelled = false ∧
      if request.filter offer.entry.path then
        ∃ size value next, offer.size = .ok size ∧
          project request archive offer.entry (session.asking offer.entry.path) =
            .ok value next ∧
          gather request archive (results.insert offer.entry.path value) offers
            (next.counting (UInt64.ofNat size)) = .ok found after
      else
        gather request archive results offers (session.asking offer.entry.path) =
          .ok found after := by
  rw [gather_cons] at gathered
  split at gathered
  · cases gathered
  · next standing =>
      refine ⟨Bool.eq_false_iff.mpr standing, ?_⟩
      split at gathered
      · next wanted =>
          rw [if_pos wanted]
          split at gathered
          · cases gathered
          · next size sized =>
              split at gathered
              · cases gathered
              · next value next projected => exact ⟨size, value, next, sized, projected, gathered⟩
      · next unwanted =>
          rw [if_neg unwanted]
          exact gathered

theorem gather_append (request : Request α) (archive : String) (results : Results α)
    (front back : List Offer) :
    gather request archive results (front ++ back) =
      gather request archive results front >>= fun found =>
        gather request archive found back := by
  induction front generalizing results with
  | nil => rfl
  | cons offer front ih =>
      funext session
      rw [List.cons_append, Outcome.state_bind, gather_cons, gather_cons]
      split
      · rfl
      · split
        · split
          · rfl
          · split
            · rfl
            · rw [ih, Outcome.state_bind]
        · rw [ih, Outcome.state_bind]

/-- The loop does not depend on what is done with entries that are not wanted, or after the
request has been cancelled. -/
theorem gather_congr {filter : String → Bool} {only? : Option (List String)}
    {first second : Projection α}
    (agree : ∀ entry surroundings, filter entry.path → surroundings.isCancelled = false →
      first entry surroundings = second entry surroundings)
    (archive : String) (results : Results α) (offers : List Offer) :
    gather ⟨filter, first, only?⟩ archive results offers =
      gather ⟨filter, second, only?⟩ archive results offers := by
  induction offers generalizing results with
  | nil => rfl
  | cons offer offers ih =>
      funext session
      rw [gather_cons, gather_cons]
      by_cases cancelled : session.isCancelled
      · rw [if_pos cancelled, if_pos cancelled]
      · rw [if_neg cancelled, if_neg cancelled]
        by_cases wanted : filter offer.entry.path
        · have same := agree offer.entry (session.asking offer.entry.path).toSurroundings wanted
            (Bool.eq_false_iff.mpr cancelled)
          simp only [if_pos wanted, project, same, ih]
        · simp only [if_neg wanted, ih]

end Loop

/-! ## What stands around the loop -/

/-- Runs an action and changes the session in the end, however the action ends. -/
def closing {α : Type} (close : Session → Session) (action : Extraction α) : Extraction α :=
  fun session =>
    match action session with
    | .ok value after => .ok value (close after)
    | .error failure after => .error failure (close after)

theorem closing_id {α : Type} (action : Extraction α) (session : Session) :
    closing (fun session => session) action session = action session := by
  unfold closing
  cases action session <;> rfl

theorem state_closing {α : Type} (close : Session → Session) (action : Extraction α)
    (session : Session) :
    Outcome.state (closing close action session) = close (Outcome.state (action session)) := by
  unfold closing
  cases action session <;> rfl

theorem closing_bind {α β : Type} (close : Session → Session) (first : Extraction α)
    (next : α → Extraction β) (session : Session) :
    closing close (first >>= next) session =
      match first session with
      | .ok value after => closing close (next value) after
      | .error failure after => .error failure (close after) := by
  unfold closing
  rw [Outcome.state_bind]
  cases first session <;> rfl

theorem closing_eq_ok_iff {α : Type} {close : Session → Session} {action : Extraction α}
    {value : α} {session after : Session} :
    closing close action session = .ok value after ↔
      ∃ ended, action session = .ok value ended ∧ close ended = after := by
  unfold closing
  cases action session with
  | error failure ended =>
      constructor
      · intro succeeded
        cases succeeded
      · rintro ⟨other, impossible, -⟩
        cases impossible
  | ok found ended =>
      constructor
      · intro succeeded
        cases succeeded
        exact ⟨ended, rfl, rfl⟩
      · rintro ⟨other, equal, rfl⟩
        cases equal
        rfl

theorem closing_eq_error_iff {α : Type} {close : Session → Session} {action : Extraction α}
    {failure : ExtractError} {session after : Session} :
    closing close action session = .error failure after ↔
      ∃ ended, action session = .error failure ended ∧ close ended = after := by
  unfold closing
  cases action session with
  | ok value ended =>
      constructor
      · intro failed
        cases failed
      · rintro ⟨other, impossible, -⟩
        cases impossible
  | error cause ended =>
      constructor
      · intro failed
        cases failed
        exact ⟨ended, rfl, rfl⟩
      · rintro ⟨other, equal, rfl⟩
        cases equal
        rfl

theorem withScratch_eq {α : Type} (archive : String) (base : Location) (root : String)
    (action : Location → Extraction α) :
    withScratch archive base root action =
      onFiles archive (createScratch base root) >>= fun scratch =>
        closing (removeScratch scratch) (action scratch) :=
  rfl

/-- A request that is cancelled before it gets a slot does nothing; any other one holds a slot up
to its end. -/
theorem withSlot_cases (session : Session) :
    (session.isCancelled = true ∨ session.limiter.isFull = true) ∧
        (∀ {α : Type} (archive : String) (action : Extraction α),
          withSlot archive action session = .error (.cancelled archive) session) ∨
      (session.isCancelled = false ∧ session.limiter.isFull = false) ∧
        ∀ {α : Type} (archive : String) (action : Extraction α),
          withSlot archive action session = closing releaseSlot action session.holding := by
  cases cancelled : session.isCancelled with
  | true =>
      refine .inl ⟨.inl rfl, fun archive action => ?_⟩
      rw [withSlot, Limiter.attempt, cancelled]
      rfl
  | false =>
      cases full : session.limiter.isFull with
      | true =>
          refine .inl ⟨.inr rfl, fun archive action => ?_⟩
          rw [withSlot, Limiter.attempt, cancelled, full]
          rfl
      | false =>
          refine .inr ⟨⟨rfl, rfl⟩, fun archive action => ?_⟩
          rw [withSlot, Limiter.attempt, cancelled, full]
          rfl

/-- What an extraction finds in front of its loop: the entries, and the failure that is met behind
the last of them, if there is one. -/
structure Course where
  offers : List Offer
  failure? : Option ExtractError
  /-- The scratch directory in which the entries lie. -/
  scratch? : Option Location

namespace Course

/-- The session after the extraction. -/
def close (course : Course) (session : Session) : Session :=
  match course.scratch? with
  | none => session
  | some scratch => removeScratch scratch session

/-- What comes behind the last entry. -/
def finish {α : Type} (course : Course) (results : Results α) : Extraction (Results α) :=
  match course.failure? with
  | some failure => throw failure
  | none => pure results

@[simp] theorem finish_of_none {α : Type} (offers : List Offer) (scratch? : Option Location) :
    (finish ⟨offers, none, scratch?⟩ : Results α → Extraction (Results α)) = pure :=
  rfl

def follow {α : Type} (course : Course) (request : Request α) (archive : String) :
    Extraction (Results α) :=
  closing course.close (gather request archive [] course.offers >>= course.finish)

theorem follow_of_noScratch {α : Type} (offers : List Offer) (failure? : Option ExtractError)
    (request : Request α) (archive : String) :
    follow ⟨offers, failure?, none⟩ request archive =
      gather request archive [] offers >>= finish ⟨offers, failure?, none⟩ := by
  funext session
  rw [follow]
  exact closing_id _ session

theorem follow_eq_ok_iff {α : Type} {course : Course} {request : Request α} {archive : String}
    {results : Results α} {session after : Session} :
    course.follow request archive session = .ok results after ↔
      course.failure? = none ∧ ∃ ended,
        gather request archive [] course.offers session = .ok results ended ∧
          course.close ended = after := by
  rw [follow, closing_bind]
  constructor
  · intro followed
    split at followed
    · next found ended gathered =>
        unfold finish at followed
        split at followed
        · cases followed
        · next finished =>
            cases followed
            exact ⟨finished, ended, gathered, rfl⟩
    · cases followed
  · rintro ⟨finished, ended, gathered, rfl⟩
    rw [gathered]
    unfold finish
    rw [finished]
    rfl

theorem follow_eq_error_iff {α : Type} {course : Course} {request : Request α} {archive : String}
    {failure : ExtractError} {session after : Session} :
    course.follow request archive session = .error failure after ↔
      ∃ ended, course.close ended = after ∧
        (gather request archive [] course.offers session = .error failure ended ∨
          course.failure? = some failure ∧
            ∃ results, gather request archive [] course.offers session = .ok results ended) := by
  rw [follow, closing_bind]
  constructor
  · intro failed
    split at failed
    · next results ended gathered =>
        unfold finish at failed
        split at failed
        · next cause met =>
            cases failed
            exact ⟨ended, rfl, .inr ⟨met, results, gathered⟩⟩
        · cases failed
    · next cause ended gathered =>
        cases failed
        exact ⟨ended, rfl, .inl gathered⟩
  · rintro ⟨ended, rfl, gathered | ⟨met, results, gathered⟩⟩
    · rw [gathered]
    · rw [gathered]
      unfold finish
      rw [met]
      rfl

end Course

/-- Unpacks a package below a scratch directory, and gives what has been unpacked. -/
def unpackAll (origin : Origin) (source : Source) (scratch : Location) :
    Extraction (List Offer) := do
  let _ ← localPath origin source scratch
  let destination := unpackDirectory scratch
  let package ← ofExcept (Omod.Package.open source)
  let data ← unpackPart package destination (·.extractPart .data)
  let plugins ← unpackPart package destination Omod.Package.extractPlugins
  report (UInt64.ofNat source.bytes.length)
  pure ((data ++ plugins).map (offerOfUnpacked destination))

/-- Unpacks a package; the scratch directory is kept for the loop, or removed after a failure. -/
def unpacking (origin : Origin) (source : Source) (scratch : Location) : Extraction Course :=
  fun session =>
    match unpackAll origin source scratch session with
    | .ok offers after => .ok ⟨offers, none, some scratch⟩ after
    | .error failure after => .error failure (removeScratch scratch after)

/-- What an extraction does in front of its loop once it holds a slot.  An archive that is left to
the archiver has no such loop. -/
def opening? (extractor : Extractor) (origin : Origin) (source : Source) :
    Strategy → Option (Extraction Course)
  | .bethesda kind => some do
      let archive ← ofExcept (Bethesda.Archive.openAs kind source)
      let files ← ofExcept archive.files
      pure ⟨files.map (offerOfFile origin.modified), none, none⟩
  | .btar => some do
      let _ ← ofExcept (Btar.openHeader source)
      let listing := Btar.records source
      pure ⟨listing.records.map (offerOfRecord source origin.modified), listing.failure, none⟩
  | .omod => some do
      let scratch ← onFiles source.name
        (createScratch extractor.workingDirectory extractor.temporaryDirectory)
      unpacking origin source scratch
  | .archiver => none

/-- An archive can be read, and its extraction opens with `opening`, because it is one that is
read in process. -/
structure InProcess (extractor : Extractor) (origin : Origin) (session : Session)
    (source : Source) (opening : Extraction Course) : Prop where
  loaded : origin.load session.tree extractor.workingDirectory = .ok source
  chosen : ∃ strategy,
    Strategy.select (ContainerKind.sniff (Stream.ofBytes source.bytes)).1 origin.name =
        .ok strategy ∧
      opening? extractor origin source strategy = some opening

section Strategies

variable {α : Type}

theorem fromBethesda_eq (extractor : Extractor) (request : Request α) (origin : Origin)
    (kind : ContainerKind) (source : Source) {opening : Extraction Course}
    (opens : opening? extractor origin source (.bethesda kind) = some opening) :
    fromBethesda request kind source origin.modified =
      withSlot source.name (opening >>= fun course => course.follow request source.name) := by
  cases opens
  simp only [fromBethesda, bind_assoc, pure_bind, Course.follow_of_noScratch,
    Course.finish_of_none, bind_pure]

theorem fromBtar_eq (extractor : Extractor) (request : Request α) (origin : Origin)
    (source : Source) {opening : Extraction Course}
    (opens : opening? extractor origin source .btar = some opening) :
    fromBtar request source origin.modified =
      withSlot source.name (opening >>= fun course => course.follow request source.name) := by
  cases opens
  simp only [fromBtar, bind_assoc, pure_bind, Course.follow_of_noScratch]
  rfl

theorem fromPackage_eq (extractor : Extractor) (request : Request α) (origin : Origin)
    (source : Source) {opening : Extraction Course}
    (opens : opening? extractor origin source .omod = some opening) :
    fromPackage extractor request origin source =
      withSlot source.name (opening >>= fun course => course.follow request source.name) := by
  cases opens
  have unpacked : ∀ scratch, (do
      let _ ← localPath origin source scratch
      let destination := unpackDirectory scratch
      let package ← ofExcept (Omod.Package.open source)
      let data ← unpackPart package destination (·.extractPart .data)
      let plugins ← unpackPart package destination Omod.Package.extractPlugins
      report (UInt64.ofNat source.bytes.length)
      gather request source.name [] ((data ++ plugins).map (offerOfUnpacked destination))) =
        unpackAll origin source scratch >>= gather request source.name [] := by
    intro scratch
    simp only [unpackAll, bind_assoc, pure_bind]
  simp only [fromPackage, unpacked, withScratch_eq, bind_assoc]
  congr 2
  funext scratch session
  rw [closing_bind, Outcome.state_bind, unpacking]
  cases unpackAll origin source scratch session with
  | error failure after => rfl
  | ok offers after =>
      simp only [Course.follow, Course.finish_of_none, bind_pure]
      rfl

/-- What the archiver has unpacked below a scratch directory. -/
def arriving (archiver : Archiver) (request : Request α) (origin : Origin) (source : Source)
    (scratch : Location) : Extraction (List (Entry × Location)) := do
  let destination := unpackDirectory scratch
  onFiles source.name (FileTree.createDirectories destination)
  withSlot source.name (unpackWith archiver request origin source scratch)
  checkCancelled source.name
  pure (unpackedFiles (← get).tree destination)

def visiting (request : Request α) (archive : String) (files : List (Entry × Location)) :
    Extraction (Results α) :=
  visitAll request archive [] none files

theorem fromArchiver_eq (extractor : Extractor) (request : Request α) (origin : Origin)
    (source : Source) (session : Session) :
    fromArchiver extractor request origin source session =
      match extractor.findArchiver session.tree with
      | .error failure => .error (.io source.name failure) session
      | .ok archiver =>
          withScratch source.name extractor.workingDirectory extractor.temporaryDirectory
            (fun scratch => arriving archiver request origin source scratch >>=
              visiting request source.name) session := by
  rw [fromArchiver, Outcome.get_bind]
  cases extractor.findArchiver session.tree with
  | error failure => rfl
  | ok archiver =>
      simp only [arriving, bind_assoc, pure_bind]
      rfl

def carryOut (extractor : Extractor) (request : Request α) (origin : Origin) (source : Source) :
    Strategy → Extraction (Results α)
  | .bethesda kind => fromBethesda request kind source origin.modified
  | .btar => fromBtar request source origin.modified
  | .omod => fromPackage extractor request origin source
  | .archiver => fromArchiver extractor request origin source

theorem carryOut_eq (extractor : Extractor) (request : Request α) (origin : Origin)
    (source : Source) {strategy : Strategy} {opening : Extraction Course}
    (opens : opening? extractor origin source strategy = some opening) :
    carryOut extractor request origin source strategy =
      withSlot source.name (opening >>= fun course => course.follow request source.name) := by
  cases strategy with
  | bethesda kind => exact fromBethesda_eq extractor request origin kind source opens
  | btar => exact fromBtar_eq extractor request origin source opens
  | omod => exact fromPackage_eq extractor request origin source opens
  | archiver => cases opens

theorem extract_eq (extractor : Extractor) (request : Request α) (origin : Origin)
    (session : Session) :
    extractor.extract request origin session =
      match origin.load session.tree extractor.workingDirectory with
      | .error failure => .error (.io origin.name failure) session
      | .ok source =>
          match Strategy.select (ContainerKind.sniff (Stream.ofBytes source.bytes)).1
              origin.name with
          | .error failure => .error failure session
          | .ok strategy =>
              (carryOut extractor request origin source strategy >>= fun results =>
                ofExcept (checkCount origin.name request.only? results)) session := by
  rw [Extractor.extract, Outcome.get_bind]
  cases origin.load session.tree extractor.workingDirectory with
  | error failure => rfl
  | ok source =>
      simp only
      rw [Outcome.state_bind]
      cases Strategy.select (ContainerKind.sniff (Stream.ofBytes source.bytes)).1 origin.name with
      | error failure => rfl
      | ok strategy => cases strategy <;> rfl

/-- An extraction in process takes a slot, opens, and follows the course that it has found. -/
theorem InProcess.extract_eq {extractor : Extractor} {origin : Origin} {session : Session}
    {source : Source} {opening : Extraction Course}
    (inProcess : InProcess extractor origin session source opening) (filter : String → Bool)
    (project : Projection α) :
    extractor.extract ⟨filter, project, none⟩ origin session =
      withSlot source.name
        (opening >>= fun course => course.follow ⟨filter, project, none⟩ source.name) session := by
  obtain ⟨strategy, selected, opens⟩ := inProcess.chosen
  rw [Extraction.extract_eq, inProcess.loaded]
  simp only [selected, carryOut_eq extractor _ origin source opens]
  rw [Outcome.state_bind]
  cases withSlot source.name (opening >>= fun course =>
      course.follow ⟨filter, project, none⟩ source.name) session <;> rfl

/-- An extraction in process that gets its slot closes what follows an opening. -/
theorem InProcess.extract_eq_closing {extractor : Extractor} {origin : Origin}
    {session : Session} {source : Source} {opening : Extraction Course}
    (inProcess : InProcess extractor origin session source opening)
    (standing : session.isCancelled = false) (free : session.limiter.isFull = false)
    (filter : String → Bool) (project : Projection α) :
    extractor.extract ⟨filter, project, none⟩ origin session =
      match opening session.holding with
      | .ok course opened =>
          closing releaseSlot (course.follow ⟨filter, project, none⟩ source.name) opened
      | .error failure after => .error failure (releaseSlot after) := by
  rw [inProcess.extract_eq]
  rcases withSlot_cases session with ⟨cancelled | full, -⟩ | ⟨-, held⟩
  · rw [standing] at cancelled
    cases cancelled
  · rw [free] at full
    cases full
  · rw [held, closing_bind]
    cases opening session.holding <;> rfl

theorem InProcess.extract_eq_ok_iff {extractor : Extractor} {origin : Origin}
    {session after : Session} {source : Source} {opening : Extraction Course}
    (inProcess : InProcess extractor origin session source opening) {filter : String → Bool}
    {project : Projection α} {results : Results α} :
    extractor.extract ⟨filter, project, none⟩ origin session = .ok results after ↔
      session.isCancelled = false ∧ session.limiter.isFull = false ∧
        ∃ course opened ended, opening session.holding = .ok course opened ∧
          course.failure? = none ∧
          gather ⟨filter, project, none⟩ source.name [] course.offers opened =
            .ok results ended ∧
          releaseSlot (course.close ended) = after := by
  constructor
  · intro extracted
    rcases withSlot_cases session with ⟨-, refused⟩ | ⟨⟨standing, free⟩, -⟩
    · rw [inProcess.extract_eq, refused] at extracted
      cases extracted
    · rw [inProcess.extract_eq_closing standing free] at extracted
      refine ⟨standing, free, ?_⟩
      split at extracted
      · next course opened opens =>
          obtain ⟨followed, outcome, rfl⟩ := closing_eq_ok_iff.mp extracted
          obtain ⟨finished, ended, gathered, rfl⟩ := Course.follow_eq_ok_iff.mp outcome
          exact ⟨course, opened, ended, opens, finished, gathered, rfl⟩
      · cases extracted
  · rintro ⟨standing, free, course, opened, ended, opens, finished, gathered, rfl⟩
    have followed := Course.follow_eq_ok_iff.mpr ⟨finished, ended, gathered, rfl⟩
    rw [inProcess.extract_eq_closing standing free, opens]
    exact closing_eq_ok_iff.mpr ⟨_, followed, rfl⟩

/-! ## What does not matter -/

theorem visit_eq (request : Request α) (archive : String) (entry : Entry) (location : Location)
    (session : Session) :
    visit request archive entry location session =
      if session.isCancelled then .error (.cancelled archive) session
      else if request.filter entry.path then
        match project request archive entry (session.asking entry.path) with
        | .error failure after => .error failure after
        | .ok value after =>
            .ok (some (entry.path, value)) { after with tree := after.tree.erase location }
      else .ok none (session.asking entry.path) := by
  rw [visit, Outcome.state_bind, checkCancelled]
  by_cases cancelled : session.isCancelled
  · simp only [if_pos cancelled]
  · simp only [if_neg cancelled]
    rw [Outcome.state_bind, ask]
    by_cases wanted : request.filter entry.path
    · simp only [if_pos wanted]
      rw [Outcome.state_bind, ← Session.asking]
      cases project request archive entry (session.asking entry.path) <;> rfl
    · simp only [if_neg wanted]
      rfl

section Congruence

variable {filter : String → Bool} {only? : Option (List String)} {first second : Projection α}
  (agree : ∀ entry surroundings, filter entry.path → surroundings.isCancelled = false →
    first entry surroundings = second entry surroundings)
include agree

theorem visit_congr (archive : String) (entry : Entry) (location : Location) :
    visit ⟨filter, first, only?⟩ archive entry location =
      visit ⟨filter, second, only?⟩ archive entry location := by
  funext session
  rw [visit_eq, visit_eq]
  by_cases cancelled : session.isCancelled
  · rw [if_pos cancelled, if_pos cancelled]
  · rw [if_neg cancelled, if_neg cancelled]
    by_cases wanted : filter entry.path
    · have same := agree entry (session.asking entry.path).toSurroundings wanted
        (Bool.eq_false_iff.mpr cancelled)
      simp only [if_pos wanted, project, same]
    · simp only [if_neg wanted]

theorem visitAll_congr (archive : String) (results : Results α) (failure? : Option ExtractError)
    (files : List (Entry × Location)) (session : Session) :
    visitAll ⟨filter, first, only?⟩ archive results failure? files session =
      visitAll ⟨filter, second, only?⟩ archive results failure? files session := by
  induction files generalizing results failure? session with
  | nil => cases failure? <;> rfl
  | cons file files ih =>
      obtain ⟨entry, location⟩ := file
      simp only [visitAll, visit_congr agree, ih]

theorem carryOut_congr (extractor : Extractor) (origin : Origin) (source : Source)
    (strategy : Strategy) :
    carryOut extractor ⟨filter, first, only?⟩ origin source strategy =
      carryOut extractor ⟨filter, second, only?⟩ origin source strategy := by
  have gathered : ∀ results offers, gather ⟨filter, first, only?⟩ source.name results offers =
      gather ⟨filter, second, only?⟩ source.name results offers :=
    gather_congr agree source.name
  have visited : visitAll ⟨filter, first, only?⟩ source.name =
      visitAll ⟨filter, second, only?⟩ source.name := by
    funext results failure? files session
    exact visitAll_congr agree source.name results failure? files session
  cases strategy with
  | bethesda kind => simp only [carryOut, fromBethesda, gathered]
  | btar => simp only [carryOut, fromBtar, gathered]
  | omod => simp only [carryOut, fromPackage, gathered]
  | archiver =>
      simp only [carryOut, fromArchiver, visited]
      rfl

/-- An extraction does not depend on what is done with entries that are not wanted, or after the
request has been cancelled: it does nothing with them. -/
theorem extract_congr (extractor : Extractor) (origin : Origin) :
    extractor.extract ⟨filter, first, only?⟩ origin =
      extractor.extract ⟨filter, second, only?⟩ origin := by
  funext session
  simp only [extract_eq, carryOut_congr agree extractor origin]

end Congruence

end Strategies
end Extraction
end GameArchive
