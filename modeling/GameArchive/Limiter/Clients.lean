import GameArchive.Limiter.Sharing

/-!
# Clients of a limiter

Clients of a limiter name their jobs and their cancellation tokens.  Several names may stand for one
token.  A job whose name is given to another one is dropped.
-/

namespace GameArchive

/-- A shared limiter with the names of its jobs and tokens. -/
structure Clients where
  sharing : Sharing
  /-- The names of jobs, each with the number of its job. -/
  jobs : List (String × Nat)
  /-- The names of tokens, each with the name under which the token was made. -/
  tokens : List (String × String)
  deriving Repr, DecidableEq

namespace Clients

def start (maximumJobs : Nat) : Clients where
  sharing := Sharing.start maximumJobs
  jobs := []
  tokens := []

def limiter (clients : Clients) : Limiter :=
  clients.sharing.limiter

/-- The name under which a token was made.  A token is made at the first use of its name. -/
def token (clients : Clients) (name : String) : String :=
  (clients.tokens.lookup name).getD name

def isCancelled (clients : Clients) (name : String) : Bool :=
  clients.sharing.cancelled.contains (clients.token name)

def cancel (clients : Clients) (name : String) : Clients :=
  { clients with sharing := clients.sharing.cancel (clients.token name) }

/-- The tokens with one that has a certain name, made if there is none. -/
def withToken (clients : Clients) (name : String) : Clients :=
  match clients.tokens.lookup name with
  | some _ => clients
  | none => { clients with tokens := (name, name) :: clients.tokens }

/-- Gives a token another name; tells whether that name stood for a token before. -/
def cloneToken (clients : Clients) (name copy : String) : Bool × Clients :=
  let clients := clients.withToken name
  let origin := clients.token name
  ((clients.tokens.lookup copy).isSome,
    { clients with tokens := (copy, origin) :: clients.tokens })

/-- The state after the job with a name is dropped, if there is such a job. -/
def drop? (clients : Clients) (name : String) : Option Clients := do
  let number ← clients.jobs.lookup name
  let sharing ← clients.sharing.drop? number
  pure { clients with sharing, jobs := clients.jobs.filter fun (found, _) => found ≠ name }

def drop (clients : Clients) (name : String) : Bool × Clients :=
  match clients.drop? name with
  | none => (false, clients)
  | some clients => (true, clients)

/-- Names a job that has just begun; a job that had the name before is dropped. -/
def hold (clients : Clients) (name : String) (number : Nat) : Clients :=
  let clients := (clients.drop name).2
  { clients with jobs := (name, number) :: clients.jobs }

/-- Asks for a slot and looks once.  Who would have to wait does not ask. -/
def attempt (clients : Clients) (name token description : String) (size : UInt64) :
    Attempt × Clients :=
  let clients := clients.withToken token
  let number := clients.sharing.next
  let asked := clients.sharing.request ⟨clients.token token, description, size⟩
  match asked.look? number with
  | some (.begun job limiter, sharing) =>
      (.begun job limiter, { clients with sharing }.hold name number)
  | some (.cancelled, sharing) => (.cancelled, { clients with sharing })
  | _ => (.waiting, clients)

/-- Starts a job while another client soon drops the job `other`, or cancels the token when there is
no such job.  Tells whether a job was dropped, and what the start found in the end.  A slot that is
given back is free for the start, and a slot that is free anyway is taken before the token is
cancelled. -/
def attemptWaiting (clients : Clients) (name token description : String) (size : UInt64)
    (other : String) : Bool × Attempt × Clients :=
  match clients.drop other with
  | (true, clients) => (true, clients.attempt name token description size)
  | (false, clients) =>
      let (outcome, clients) := clients.attempt name token description size
      match outcome with
      | .waiting => (false, (clients.cancel token).attempt name token description size)
      | _ => (false, outcome, clients.cancel token)

/-- Counts bytes for a job and for the limiter; gives the sum of the reports of the job, if there is
such a job. -/
def report (clients : Clients) (name : String) (bytes : UInt64) : Option UInt64 × Clients :=
  let counted := do
    let number ← clients.jobs.lookup name
    let job ← clients.sharing.jobs.lookup number
    let sharing ← clients.sharing.report? number bytes
    let sharing ← sharing.settle? 0
    pure ((job.count bytes).reported, { clients with sharing })
  match counted with
  | none => (none, clients)
  | some (sum, clients) => (some sum, clients)

end Clients
end GameArchive
