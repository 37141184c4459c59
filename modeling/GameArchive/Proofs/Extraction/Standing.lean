import GameArchive.Proofs.Extraction.Course

/-!
# What an extraction leaves as it was

Nothing in front of the loop cancels the request or takes a slot, and the loop and what comes after
it give back no slot but the one that the extraction holds.
-/

namespace GameArchive
namespace Extraction

/-- However an action ends, some view of the session is as it was before. -/
def Keeps {α β : Type} (view : Session → β) (action : Extraction α) : Prop :=
  ∀ session, view (Outcome.state (action session)) = view session

section Keeps

variable {α β γ : Type} {view : Session → β}

theorem Keeps.bind {first : Extraction α} {next : α → Extraction γ} (before : Keeps view first)
    (behind : ∀ value, Keeps view (next value)) : Keeps view (first >>= next) := by
  intro session
  have kept := before session
  rw [Outcome.state_bind]
  cases outcome : first session with
  | error failure after =>
      rw [outcome] at kept
      exact kept
  | ok value after =>
      rw [outcome] at kept
      exact (behind value after).trans kept

theorem keeps_pure (value : α) : Keeps view (pure value : Extraction α) := fun _ => rfl

theorem keeps_ofExcept (outcome : Except ExtractError α) : Keeps view (ofExcept outcome) := by
  intro session
  cases outcome <;> rfl

theorem keeps_onFiles (archive : String) (action : EStateM IoError FileTree α) :
    Keeps Session.standing (onFiles archive action) := by
  intro session
  unfold onFiles
  cases action session.tree <;> rfl

theorem keeps_unpackPart (package : Omod.Package) (destination : Location)
    (extract : Omod.Package → Location → FileTree →
      Except ExtractError (List Omod.WrittenFile) × FileTree) :
    Keeps Session.standing (unpackPart package destination extract) := by
  intro session
  rw [unpackPart]
  obtain ⟨outcome, tree⟩ := extract package destination session.tree
  cases outcome <;> rfl

theorem keeps_localPath (origin : Origin) (source : Source) (scratch : Location) :
    Keeps Session.standing (localPath origin source scratch) := by
  cases origin with
  | file path => exact keeps_pure path
  | memory source modified =>
      exact (keeps_onFiles _ _).bind fun _ => keeps_pure _

theorem keeps_unpackAll (origin : Origin) (source : Source) (scratch : Location) :
    Keeps Session.standing (unpackAll origin source scratch) := by
  refine (keeps_localPath origin source scratch).bind fun _ => ?_
  refine (keeps_ofExcept _).bind fun package => ?_
  refine (keeps_unpackPart package _ _).bind fun data => ?_
  refine (keeps_unpackPart package _ _).bind fun plugins => ?_
  exact Keeps.bind (fun session => rfl) fun _ => keeps_pure _

theorem keeps_unpacking (origin : Origin) (source : Source) (scratch : Location) :
    Keeps Session.standing (unpacking origin source scratch) := by
  intro session
  have kept := keeps_unpackAll origin source scratch session
  unfold unpacking
  cases outcome : unpackAll origin source scratch session with
  | error failure after =>
      rw [outcome] at kept
      exact kept
  | ok offers after =>
      rw [outcome] at kept
      exact kept

/-- Nothing in front of the loop cancels the request or takes a slot. -/
theorem keeps_opening {extractor : Extractor} {origin : Origin} {source : Source}
    {strategy : Strategy} {opening : Extraction Course}
    (opens : opening? extractor origin source strategy = some opening) :
    Keeps Session.standing opening := by
  cases strategy with
  | bethesda kind =>
      cases opens
      exact (keeps_ofExcept _).bind fun _ => (keeps_ofExcept _).bind fun _ => keeps_pure _
  | btar =>
      cases opens
      exact (keeps_ofExcept _).bind fun _ => keeps_pure _
  | omod =>
      cases opens
      exact (keeps_onFiles _ _).bind fun scratch => keeps_unpacking origin source scratch
  | archiver => cases opens

theorem keeps_gather (request : Request α) (archive : String) (results : Results α)
    (offers : List Offer) :
    Keeps (fun session => session.limiter.runningJobs)
      (gather request archive results offers) := by
  induction offers generalizing results with
  | nil => exact keeps_pure results
  | cons offer offers ih =>
      intro session
      rw [gather_cons]
      split
      · rfl
      · split
        · split
          · rfl
          · next size sized =>
              have kept : (Outcome.state (project request archive offer.entry
                  (session.asking offer.entry.path))).limiter.runningJobs =
                    session.limiter.runningJobs := by
                unfold project
                split <;> rfl
              split
              · next failed =>
                  rw [failed] at kept
                  exact kept
              · next value after projected =>
                  rw [projected] at kept
                  exact (ih _ _).trans kept
        · exact ih _ _

theorem Course.close_standing (course : Course) (session : Session) :
    (course.close session).standing = session.standing := by
  unfold Course.close
  split <;> rfl

theorem Keeps.closing {close : Session → Session} {action : Extraction α}
    (kept : Keeps view action) (closed : ∀ session, view (close session) = view session) :
    Keeps view (closing close action) := by
  intro session
  rw [state_closing, closed]
  exact kept session

theorem keeps_follow (course : Course) (request : Request α) (archive : String) :
    Keeps (fun session => session.limiter.runningJobs) (course.follow request archive) := by
  refine Keeps.closing ?_ fun session => congrArg Prod.snd (course.close_standing session)
  refine (keeps_gather request archive [] course.offers).bind fun results => ?_
  unfold Course.finish
  split
  · exact fun session => rfl
  · exact keeps_pure results

end Keeps

section Whole

variable {α : Type} {extractor : Extractor} {origin : Origin} {session : Session}
  {source : Source} {opening : Extraction Course}

theorem InProcess.keeps (inProcess : InProcess extractor origin session source opening) :
    Keeps Session.standing opening := by
  obtain ⟨strategy, -, opens⟩ := inProcess.chosen
  exact keeps_opening opens

theorem InProcess.runningJobs_eq (inProcess : InProcess extractor origin session source opening)
    (filter : String → Bool) (project : Projection α) :
    (Outcome.state (extractor.extract ⟨filter, project, none⟩ origin session)).limiter.runningJobs =
      session.limiter.runningJobs := by
  rw [inProcess.extract_eq]
  rcases withSlot_cases session with ⟨-, refused⟩ | ⟨-, held⟩
  · rw [refused]
    rfl
  · have opened : Keeps (fun session => session.limiter.runningJobs) opening :=
      fun session => congrArg Prod.snd (inProcess.keeps session)
    have kept := opened.bind
      (fun course => keeps_follow course ⟨filter, project, none⟩ source.name) session.holding
    rw [held, state_closing]
    exact congrArg (· - 1) kept

end Whole
end Extraction
end GameArchive
