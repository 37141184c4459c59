import GameArchive.Limiter.Basic

/-!
# Sharing a limiter

Any number of clients share a limiter and ask it for slots.  A request gets a number and looks at
the limiter again and again until it is answered; the job that it is granted keeps the number, and
holds its slot until it is dropped.  A report is counted by its job first and by the limiter
afterwards, and other clients may come in between.  A step is one such access to what is shared, so
that every interleaving of clients is a sequence of steps.
-/

namespace GameArchive

structure SlotRequest where
  token : String
  description : String
  size : UInt64
  deriving Repr, DecidableEq

/-- A limiter with the requests that wait for its slots, the jobs that hold them, and the tokens
that have been cancelled. -/
structure Sharing where
  limiter : Limiter
  requests : List (Nat × SlotRequest)
  jobs : List (Nat × Job)
  /-- Reports that their jobs have counted and the limiter has not. -/
  reports : List UInt64
  cancelled : List String
  /-- The number of the next request. -/
  next : Nat
  deriving Repr, DecidableEq

namespace Sharing

def start (maximumJobs : Nat) : Sharing where
  limiter := Limiter.ofMaximum maximumJobs
  requests := []
  jobs := []
  reports := []
  cancelled := []
  next := 0

def request (sharing : Sharing) (asked : SlotRequest) : Sharing :=
  { sharing with
    requests := (sharing.next, asked) :: sharing.requests
    next := sharing.next + 1 }

/-- The state in which a request is not there any more. -/
def withdraw (sharing : Sharing) (number : Nat) : Sharing :=
  { sharing with requests := sharing.requests.filter fun entry => entry.1 ≠ number }

/-- The state in which a job holds the slot that it was requested for. -/
def grant (sharing : Sharing) (number : Nat) (job : Job) (limiter : Limiter) : Sharing :=
  { sharing.withdraw number with limiter, jobs := (number, job) :: sharing.jobs }

/-- One look of a request at the limiter, if it still waits. -/
def look? (sharing : Sharing) (number : Nat) : Option (Attempt × Sharing) := do
  let asked ← sharing.requests.lookup number
  match sharing.limiter.attempt (sharing.cancelled.contains asked.token) asked.description
      asked.size with
  | .waiting => pure (.waiting, sharing)
  | .cancelled => pure (.cancelled, sharing.withdraw number)
  | .begun job limiter => pure (.begun job limiter, sharing.grant number job limiter)

/-- Drops a job, which gives its slot back. -/
def drop? (sharing : Sharing) (number : Nat) : Option Sharing := do
  let _ ← sharing.jobs.lookup number
  pure {
    sharing with
    limiter := sharing.limiter.release
    jobs := sharing.jobs.eraseP fun entry => entry.1 = number }

/-- Counts bytes for the job with a number. -/
def countFor (number : Nat) (bytes : UInt64) (entry : Nat × Job) : Nat × Job :=
  (entry.1, if entry.1 = number then entry.2.count bytes else entry.2)

/-- Counts bytes for a job; the limiter does not know of them yet. -/
def report? (sharing : Sharing) (number : Nat) (bytes : UInt64) : Option Sharing := do
  let _ ← sharing.jobs.lookup number
  pure {
    sharing with
    jobs := sharing.jobs.map (countFor number bytes)
    reports := bytes :: sharing.reports }

/-- Counts a report for the limiter. -/
def settle? (sharing : Sharing) (position : Nat) : Option Sharing := do
  let bytes ← sharing.reports[position]?
  pure {
    sharing with
    limiter := sharing.limiter.count bytes
    reports := sharing.reports.eraseIdx position }

def cancel (sharing : Sharing) (token : String) : Sharing :=
  { sharing with cancelled := token :: sharing.cancelled }

/-- One access of one client to what is shared. -/
inductive Step where
  | request (asked : SlotRequest)
  | look (number : Nat)
  | drop (number : Nat)
  | report (number : Nat) (bytes : UInt64)
  | settle (position : Nat)
  | cancel (token : String)
  deriving Repr, DecidableEq

/-- The state after a step, if the step can be made. -/
def after? (sharing : Sharing) : Step → Option Sharing
  | .request asked => some (sharing.request asked)
  | .look number => (sharing.look? number).map Prod.snd
  | .drop number => sharing.drop? number
  | .report number bytes => sharing.report? number bytes
  | .settle position => sharing.settle? position
  | .cancel token => some (sharing.cancel token)

/-- The state after some steps, if each of them can be made. -/
def run? (sharing : Sharing) (steps : List Step) : Option Sharing :=
  steps.foldlM after? sharing

end Sharing
end GameArchive
