import GameArchive.Proofs.Extraction.Standing

/-!
# Cancelled extractions

A request that is cancelled, be it before the extraction, while the extraction waits for its slot
or while an entry is projected, ends in a failure or in what an extraction that is never cancelled
gives.  It can only end in the latter when the request was cancelled in the projection of the last
entry, because the loop looks at the request in front of every entry, wanted or not.

The number of running jobs is in the end what it was at the start.
-/

namespace GameArchive

/-- A projection that acts on the files, and may cancel the request whatever the action comes to.
The action may take note of its calls in the files, so that the call that cancels the request can
be any one. -/
def Projection.acting {α : Type} (act : Entry → EStateM ProjectionFailure FileTree α)
    (cancels : Entry → FileTree → Bool) : Projection α := fun entry surroundings =>
  let isCancelled := surroundings.isCancelled || cancels entry surroundings.tree
  match act entry surroundings.tree with
  | .ok value tree => .ok value { tree, isCancelled }
  | .error failure tree => .error failure { tree, isCancelled }

/-- The request for the entries of some paths that may be cancelled while they are projected. -/
def Request.acting {α : Type} (filter : String → Bool)
    (act : Entry → EStateM ProjectionFailure FileTree α)
    (cancels : Entry → FileTree → Bool) : Request α :=
  ⟨filter, .acting act cancels, none⟩

/-- The session as it would be if the request had not been cancelled. -/
def Session.uncancelled (session : Session) : Session :=
  { session with isCancelled := false }

theorem Session.uncancelled_eq {session : Session} (standing : session.isCancelled = false) :
    session.uncancelled = session := by
  rw [Session.uncancelled, ← standing]

namespace Extraction

/-! ## Cancellation in the loop -/

section Loop

variable {α : Type} {filter : String → Bool} {only? : Option (List String)}
  {act : Entry → EStateM ProjectionFailure FileTree α} {cancels : Entry → FileTree → Bool}

theorem project_acting (archive : String) (entry : Entry) (session : Session) :
    project ⟨filter, .acting act cancels, only?⟩ archive entry session =
      match act entry session.tree with
      | .ok value tree =>
          .ok value { session with
            tree, isCancelled := session.isCancelled || cancels entry session.tree }
      | .error failure tree =>
          .error (failure.ofEntry archive entry.path) { session with
            tree, isCancelled := session.isCancelled || cancels entry session.tree } := by
  simp only [project, Projection.acting]
  cases act entry session.tree <;> rfl

/-- A loop over entries with a request that may be cancelled stops, or does all that it does when
the request is never cancelled. -/
theorem gather_stopped_or_alike (archive : String) (results : Results α) (offers : List Offer)
    {session : Session} (standing : session.isCancelled = false) :
    (∃ after, gather ⟨filter, .acting act cancels, only?⟩ archive results offers session =
        .error (.cancelled archive) after) ∨
      Outcome.mapState Session.uncancelled
          (gather ⟨filter, .acting act cancels, only?⟩ archive results offers session) =
        gather ⟨filter, .acting act fun _ _ => false, only?⟩ archive results offers session := by
  induction offers generalizing results session with
  | nil =>
      right
      exact congrArg (EStateM.Result.ok results) (Session.uncancelled_eq standing)
  | cons offer offers ih =>
      rw [gather_cons_of_standing _ _ _ _ _ standing, gather_cons_of_standing _ _ _ _ _ standing]
      have asked : (session.asking offer.entry.path).isCancelled = false := standing
      by_cases wanted : filter offer.entry.path
      · simp only [if_pos wanted]
        cases offer.size with
        | error failure =>
            right
            exact congrArg (EStateM.Result.error failure) (Session.uncancelled_eq asked)
        | ok size =>
            simp only [project_acting]
            cases act offer.entry (session.asking offer.entry.path).tree with
            | error failure tree =>
                right
                rw [asked]
                rfl
            | ok value tree =>
                cases cancels offer.entry (session.asking offer.entry.path).tree with
                | false =>
                    simp only [Bool.or_false]
                    exact ih _ asked
                | true =>
                    -- The next entry, if there is one, finds the request cancelled.
                    simp only [Bool.or_true, Bool.or_false]
                    cases offers with
                    | nil =>
                        right
                        rw [asked]
                        rfl
                    | cons next offers =>
                        left
                        rw [gather_cons]
                        exact ⟨_, rfl⟩
      · simp only [if_neg wanted]
        exact ih results asked

/-- A loop that succeeds although the request has been cancelled has found it cancelled by the
projection of its last entry, and by no other. -/
theorem cancelled_by_last {request : Request α} {archive : String} {results found : Results α}
    {offers : List Offer} {session after : Session} (standing : session.isCancelled = false)
    (gathered : gather request archive results offers session = .ok found after)
    (cancelled : after.isCancelled = true) :
    ∃ front last soFar middle value next, offers = front ++ [last] ∧
      gather request archive results front session = .ok soFar middle ∧
      middle.isCancelled = false ∧ request.filter last.entry.path = true ∧
      project request archive last.entry (middle.asking last.entry.path) = .ok value next ∧
      next.isCancelled = true := by
  rcases List.eq_nil_or_concat offers with rfl | ⟨front, last, rfl⟩
  · cases gathered
    rw [standing] at cancelled
    cases cancelled
  · rw [List.concat_eq_append] at gathered ⊢
    rw [gather_append, Outcome.state_bind_eq_ok_iff] at gathered
    obtain ⟨soFar, middle, before, behind⟩ := gathered
    obtain ⟨stillStanding, step⟩ := gather_cons_eq_ok behind
    split at step
    · next wanted =>
        obtain ⟨size, value, next, -, projected, ended⟩ := step
        cases ended
        exact ⟨front, last, soFar, middle, value, next, rfl, before, stillStanding, wanted,
          projected, cancelled⟩
    · cases step
      rw [Session.asking, stillStanding] at cancelled
      cases cancelled

/-- What comes behind the loop does not look at the request. -/
theorem closing_alike {close : Session → Session} {first second : Extraction α}
    {session : Session}
    (commutes : ∀ session, close session.uncancelled = (close session).uncancelled)
    (alike : Outcome.mapState Session.uncancelled (first session) = second session) :
    Outcome.mapState Session.uncancelled (closing close first session) =
      closing close second session := by
  rw [closing, closing, ← alike]
  cases first session with
  | ok value after => exact congrArg (EStateM.Result.ok value) (commutes after).symm
  | error failure after => exact congrArg (EStateM.Result.error failure) (commutes after).symm

theorem Course.close_uncancelled (course : Course) (session : Session) :
    course.close session.uncancelled = (course.close session).uncancelled := by
  unfold Course.close
  split <;> rfl

theorem Course.finish_alike (course : Course) {first second : Extraction (Results α)}
    {session : Session}
    (alike : Outcome.mapState Session.uncancelled (first session) = second session) :
    Outcome.mapState Session.uncancelled ((first >>= course.finish) session) =
      (second >>= course.finish) session := by
  rw [Outcome.state_bind, Outcome.state_bind, ← alike]
  cases first session with
  | error failure after => rfl
  | ok results after =>
      unfold Course.finish
      cases course.failure? <;> rfl

theorem Course.follow_stopped_or_alike (course : Course) (filter : String → Bool)
    (only? : Option (List String)) (act : Entry → EStateM ProjectionFailure FileTree α)
    (cancels : Entry → FileTree → Bool) (archive : String) {session : Session}
    (standing : session.isCancelled = false) :
    (∃ after, course.follow ⟨filter, .acting act cancels, only?⟩ archive session =
        .error (.cancelled archive) after) ∨
      Outcome.mapState Session.uncancelled
          (course.follow ⟨filter, .acting act cancels, only?⟩ archive session) =
        course.follow ⟨filter, .acting act fun _ _ => false, only?⟩ archive session := by
  rcases gather_stopped_or_alike archive [] course.offers standing with ⟨after, stopped⟩ | alike
  · left
    rw [Course.follow, closing, Outcome.state_bind, stopped]
    exact ⟨_, rfl⟩
  · right
    exact closing_alike course.close_uncancelled (course.finish_alike alike)

end Loop

/-! ## Whole extractions -/

section Whole

variable {α : Type} {extractor : Extractor} {origin : Origin} {session : Session}
  {source : Source} {opening : Extraction Course}

theorem InProcess.stopped_or_alike
    (inProcess : InProcess extractor origin session source opening) (filter : String → Bool)
    (act : Entry → EStateM ProjectionFailure FileTree α) (cancels : Entry → FileTree → Bool) :
    (∃ after, extractor.extract (.acting filter act cancels) origin session =
        .error (.cancelled source.name) after) ∨
      Outcome.mapState Session.uncancelled
          (extractor.extract (.acting filter act cancels) origin session) =
        extractor.extract (.acting filter act fun _ _ => false) origin session.uncancelled := by
  rcases withSlot_cases session with ⟨-, refused⟩ | ⟨⟨standing, free⟩, -⟩
  · left
    rw [Request.acting, inProcess.extract_eq, refused]
    exact ⟨session, rfl⟩
  · rw [Session.uncancelled_eq standing, Request.acting, Request.acting,
      inProcess.extract_eq_closing standing free, inProcess.extract_eq_closing standing free]
    have opens := congrArg Prod.fst (inProcess.keeps session.holding)
    cases outcome : opening session.holding with
    | error failure after =>
        right
        rw [outcome] at opens
        have still : after.isCancelled = false := opens.trans standing
        have same : (releaseSlot after).uncancelled = releaseSlot after :=
          Session.uncancelled_eq still
        exact congrArg (EStateM.Result.error failure) same
    | ok course opened =>
        rw [outcome] at opens
        have still : opened.isCancelled = false := opens.trans standing
        rcases course.follow_stopped_or_alike filter none act cancels source.name still with
          ⟨after, stopped⟩ | alike
        · left
          simp only [closing, stopped]
          exact ⟨_, rfl⟩
        · right
          exact closing_alike (fun _ => rfl) alike

theorem InProcess.cancelled_by_last
    (inProcess : InProcess extractor origin session source opening) {filter : String → Bool}
    {act : Entry → EStateM ProjectionFailure FileTree α} {cancels : Entry → FileTree → Bool}
    {results : Results α} {after : Session}
    (extracted : extractor.extract (.acting filter act cancels) origin session =
      .ok results after)
    (cancelled : after.isCancelled = true) :
    ∃ course opened front last soFar middle,
      opening session.holding = .ok course opened ∧ course.offers = front ++ [last] ∧
      gather (.acting filter act cancels) source.name [] front opened = .ok soFar middle ∧
      middle.isCancelled = false ∧ filter last.entry.path = true ∧
      cancels last.entry middle.tree = true := by
  obtain ⟨standing, -, course, opened, ended, opens, -, gathered, rfl⟩ :=
    inProcess.extract_eq_ok_iff.mp extracted
  have kept := congrArg Prod.fst (inProcess.keeps session.holding)
  rw [opens] at kept
  have endCancelled : ended.isCancelled = true :=
    (congrArg Prod.fst (course.close_standing ended)).symm.trans cancelled
  obtain ⟨front, last, soFar, middle, value, next, split, before, still, wanted, projected,
    stopped⟩ := Extraction.cancelled_by_last (kept.trans standing) gathered endCancelled
  refine ⟨course, opened, front, last, soFar, middle, opens, split, before, still, wanted, ?_⟩
  rw [project_acting] at projected
  cases acted : act last.entry (middle.asking last.entry.path).tree with
  | error failure tree =>
      rw [acted] at projected
      cases projected
  | ok value tree =>
      rw [acted] at projected
      cases projected
      have cancelledNow := stopped
      rwa [Session.asking, still, Bool.false_or] at cancelledNow

/-- A request that is cancelled once, before the extraction or its slot or while some entry is
projected, is told so or is answered as if it had never been cancelled.  Whatever a projection does
in a cancelled request, it does not come to it.  A cancelled request is only answered when the entry
that was projected then is the last one of the archive. -/
theorem extract_whole_or_failed
    (inProcess : InProcess extractor origin session source opening) (filter : String → Bool)
    (act : Entry → EStateM ProjectionFailure FileTree α) (cancels : Entry → FileTree → Bool) :
    (∀ project : Projection α,
      (∀ entry surroundings, surroundings.isCancelled = false →
        project entry surroundings = Projection.acting act cancels entry surroundings) →
      extractor.extract ⟨filter, project, none⟩ origin session =
        extractor.extract (.acting filter act cancels) origin session) ∧
    (session.isCancelled = true ∨ session.limiter.isFull = true →
      extractor.extract (.acting filter act cancels) origin session =
        .error (.cancelled source.name) session) ∧
    ((∃ after, extractor.extract (.acting filter act cancels) origin session =
        .error (.cancelled source.name) after) ∨
      Outcome.mapState Session.uncancelled
          (extractor.extract (.acting filter act cancels) origin session) =
        extractor.extract (.acting filter act fun _ _ => false) origin session.uncancelled) ∧
    (∀ results after,
      extractor.extract (.acting filter act cancels) origin session = .ok results after →
      after.isCancelled = true →
      ∃ course opened front last soFar middle,
        opening session.holding = .ok course opened ∧ course.offers = front ++ [last] ∧
        gather (.acting filter act cancels) source.name [] front opened = .ok soFar middle ∧
        middle.isCancelled = false ∧ filter last.entry.path = true ∧
        cancels last.entry middle.tree = true) ∧
    (Outcome.state
      (extractor.extract (.acting filter act cancels) origin session)).limiter.runningJobs =
        session.limiter.runningJobs := by
  refine ⟨?_, ?_, inProcess.stopped_or_alike filter act cancels, ?_,
    inProcess.runningJobs_eq filter (.acting act cancels)⟩
  · intro project agree
    apply congrFun
    apply extract_congr
    intro entry surroundings _ standing
    exact agree entry surroundings standing
  · intro stops
    rcases withSlot_cases session with ⟨-, refused⟩ | ⟨⟨standing, free⟩, -⟩
    · rw [Request.acting, inProcess.extract_eq, refused]
    · rw [standing, free] at stops
      rcases stops with impossible | impossible <;> cases impossible
  · intro results after extracted cancelled
    exact inProcess.cancelled_by_last extracted cancelled

/-- Two records, the first of which is projected when the request is cancelled. -/
theorem extract_whole_or_failed_twoRecords :
    let bytes := [0x42, 0x54, 0x41, 0x52, 1, 0, 4, 0, 1, 0, 0x61, 1, 0, 0, 0, 0, 0, 0, 0, 7,
      1, 0, 0x62, 1, 0, 0, 0, 0, 0, 0, 0, 8]
    let extractor : Extractor := ⟨[], "tmp", fun _ => .error .system⟩
    let session : Session := ⟨⟨.empty, false⟩, .ofMaximum 1, ⟨0, 0⟩, []⟩
    let request : Request Unit :=
      .acting (fun _ => true) (fun _ => pure ()) fun entry _ => entry.path = "a"
    ∃ after, extractor.extract request (.memory ⟨"pack.btar", bytes⟩ 0) session =
        .error (.cancelled "pack.btar") after ∧
      after.limiter.runningJobs = 0 := by
  intro bytes extractor session request
  have inProcess : InProcess extractor (.memory ⟨"pack.btar", bytes⟩ 0) session
      ⟨"pack.btar", bytes⟩ _ := ⟨rfl, .btar, rfl, rfl⟩
  have whole := extract_whole_or_failed inProcess (fun _ => true) (fun _ => pure ())
    (fun entry _ => entry.path = "a")
  rcases whole.2.2.1 with ⟨after, stopped⟩ | alike
  · have released := whole.2.2.2.2
    rw [stopped] at released
    exact ⟨after, stopped, released⟩
  · have asked := congrArg (fun outcome => (Outcome.state outcome).asked) alike
    exact absurd asked (by decide)

end Whole

end Extraction
end GameArchive
