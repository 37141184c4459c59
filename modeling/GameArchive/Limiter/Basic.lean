import GameArchive.Error

/-!
# Limiter slots

A limiter grants a fixed number of slots, of which there is always at least one.  A job holds a
slot from its start to its release and reports the bytes that it has processed; the limiter adds
up the reports of all jobs.  Sums are words of 64 bits.

Starting a job is tried once for every look at the limiter: the try finds the request cancelled,
or no slot free, or it takes a slot.
-/

namespace GameArchive

/-- The state that all users of a limiter share. -/
structure Limiter where
  maximumJobs : Nat
  runningJobs : Nat
  /-- The bytes that all jobs have reported. -/
  totalBytes : UInt64
  deriving Repr, DecidableEq

/-- A job that holds a slot. -/
structure Job where
  description : String
  size : UInt64
  /-- The bytes that this job has reported. -/
  reported : UInt64
  deriving Repr, DecidableEq

/-- What a try to start a job finds. -/
inductive Attempt where
  /-- All slots are taken and the request still stands. -/
  | waiting
  | cancelled
  | begun (job : Job) (limiter : Limiter)
  deriving Repr, DecidableEq

namespace Limiter

def ofMaximum (maximumJobs : Nat) : Limiter where
  maximumJobs := max 1 maximumJobs
  runningJobs := 0
  totalBytes := 0

def isFull (limiter : Limiter) : Bool :=
  limiter.maximumJobs ≤ limiter.runningJobs

def attempt (limiter : Limiter) (isCancelled : Bool) (description : String) (size : UInt64) :
    Attempt :=
  if isCancelled then .cancelled
  else if limiter.isFull then .waiting
  else
    .begun ⟨description, size, 0⟩ { limiter with runningJobs := limiter.runningJobs + 1 }

/-- The limiter after a job has given its slot back. -/
def release (limiter : Limiter) : Limiter :=
  { limiter with runningJobs := limiter.runningJobs - 1 }

def count (limiter : Limiter) (bytes : UInt64) : Limiter :=
  { limiter with totalBytes := limiter.totalBytes + bytes }

end Limiter

def Job.count (job : Job) (bytes : UInt64) : Job :=
  { job with reported := job.reported + bytes }

/-- Bytes done and bytes expected. -/
structure Progress where
  done : UInt64
  total : UInt64
  deriving Repr, DecidableEq

namespace Progress

def start : Progress := ⟨0, 0⟩

def add (progress : Progress) (bytes : UInt64) : Progress :=
  { progress with done := progress.done + bytes }

def addTotal (progress : Progress) (bytes : UInt64) : Progress :=
  { progress with total := progress.total + bytes }

end Progress
end GameArchive
