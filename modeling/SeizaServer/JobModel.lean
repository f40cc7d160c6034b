import Mathlib.Data.Rat.Defs
import SeizaServer.LeaseProtocol

/-!
# Jobs, leases and the queue policy

The records shared by both job repositories, the arithmetic of lease expiry,
and the candidate loop of the least-recently-served scheduler, which the two
repositories carry in the same words.
-/

namespace SeizaServer

/-- A UUID, as its 128 bits. -/
abbrev JobId := BitVec 128

/-- The displayed number of lowest hexadecimal digits. -/
def hexDigits (value : ℕ) : ℕ → List Char
  | 0 => []
  | count + 1 => hexDigits (value / 16) count ++ [Nat.digitChar (value % 16)]

/-- The hyphenated text of a UUID. -/
def uuidText (id : JobId) : String :=
  let digits := hexDigits id.toNat 32
  String.ofList (digits.take 8 ++ '-' :: (digits.drop 8).take 4 ++ '-' :: (digits.drop 12).take 4 ++
    '-' :: (digits.drop 16).take 4 ++ '-' :: digits.drop 20)

/-- An instant, in nanoseconds since the Unix epoch.  Both stores keep it as
RFC 3339 text in UTC; their comparisons of that text are written here as
comparisons of the instants. -/
abbrev Time := ℤ

/-- What a repository call reports instead of a result: an error raised by the
database, an error raised by the repository itself, or a panic. -/
inductive Fault where
  | database (message : String)
  | bail (message : String)
  | panic (message : String)
  deriving DecidableEq, Repr

inductive JobStatus where
  | queued
  | solving
  | succeeded
  | failed
  deriving DecidableEq, Repr

/-- `JobStatus::Succeeded | JobStatus::Failed`. -/
def JobStatus.terminal : JobStatus → Bool
  | .queued => false
  | .solving => false
  | .succeeded => true
  | .failed => true

/-- The last eight bytes of the UUID without the sign bit, and never zero. -/
def astrometryIdForJob (jobId : JobId) : ℕ :=
  max (jobId.toNat % 2 ^ 64 % 2 ^ 63) 1

structure ValidationDonation where
  objectKey : String
  comment : Option String
  solveIsInvalid : Bool
  licenseVersion : String
  donatedAt : Time
  deriving DecidableEq, Repr

/-- The job as callers see it.  Solve options and solutions are opaque to the
repositories, which only store and return them. -/
structure JobRecord (Options Solution : Type) where
  id : JobId
  astrometryId : ℕ
  owner : String
  queueWeight : ℚ
  objectKey : String
  originalFilename : String
  contentType : Option String
  options : Options
  status : JobStatus
  createdAt : Time
  startedAt : Option Time
  completedAt : Option Time
  solution : Option Solution
  error : Option String
  validationDonation : Option ValidationDonation
  deriving DecidableEq

def JobRecord.inputObjectKey {Options Solution : Type}
    (job : JobRecord Options Solution) : String :=
  match job.validationDonation with
  | some donation => donation.objectKey
  | none => job.objectKey

/-- The record both repositories store for a submitted job. -/
def enqueuedRecord {Options Solution : Type} (job : JobRecord Options Solution) :
    JobRecord Options Solution :=
  { job with astrometryId := astrometryIdForJob job.id, status := .queued }

@[simp] theorem enqueuedRecord_id {Options Solution : Type}
    (job : JobRecord Options Solution) : (enqueuedRecord job).id = job.id := rfl

@[simp] theorem enqueuedRecord_objectKey {Options Solution : Type}
    (job : JobRecord Options Solution) : (enqueuedRecord job).objectKey = job.objectKey := rfl

/-- The status a completion with this solution writes. -/
def completionStatus {Solution : Type} (solution : Option Solution) : JobStatus :=
  if solution.isSome then .succeeded else .failed

theorem terminal_completionStatus {Solution : Type} (solution : Option Solution) :
    (completionStatus solution).terminal = true := by
  cases solution <;> rfl

/-- A submission without options, for runs on fixed inputs. -/
def sampleJob (id : JobId) (owner objectKey : String) (queueWeight : ℚ) (createdAt : Time) :
    JobRecord Unit Unit where
  id := id
  astrometryId := 0
  owner := owner
  queueWeight := queueWeight
  objectKey := objectKey
  originalFilename := "sky.fits"
  contentType := none
  options := ()
  status := .queued
  createdAt := createdAt
  startedAt := none
  completedAt := none
  solution := none
  error := none
  validationDonation := none

structure JobLease (Options : Type) where
  jobId : JobId
  leaseToken : String
  leaseExpiresAt : Time
  originalFilename : String
  options : Options
  deriving DecidableEq

/-! ## The repository interface -/

section Interface

variable {Options Solution : Type}

/-- The methods of the repository with their arguments. -/
inductive RepositoryCall (Options Solution : Type) where
  | enqueue (job : JobRecord Options Solution)
  | get (id : JobId)
  | findByObjectKey (objectKey : String)
  | claim (requestedJobId : Option JobId) (leaseSeconds : UInt64)
  | heartbeat (id : JobId) (leaseToken : String) (leaseSeconds : UInt64)
  | inputKey (id : JobId) (leaseToken : String)
  | complete (id : JobId) (leaseToken : String) (solution : Option Solution)
      (error : Option String)
  | donateValidation (id : JobId) (donation : ValidationDonation)
  | pendingNotifications (limit : ℕ)
  | markNotificationDelivered (id : JobId)

@[reducible] def RepositoryCall.Result : RepositoryCall Options Solution → Type
  | .enqueue _ => JobRecord Options Solution
  | .get _ => Option (JobRecord Options Solution)
  | .findByObjectKey _ => Option (JobRecord Options Solution)
  | .claim .. => Option (JobLease Options)
  | .heartbeat .. => Bool
  | .inputKey .. => Option String
  | .complete .. => Bool
  | .donateValidation .. => Bool
  | .pendingNotifications _ => List JobId
  | .markNotificationDelivered _ => Unit

/-- What a call reads from outside the store. -/
structure CallEnvironment where
  now : Time
  token : String

/-- One call together with the clock and the token it reads. -/
structure Invocation (Options Solution : Type) where
  call : RepositoryCall Options Solution
  env : CallEnvironment

end Interface

/-! ## Lease expiry -/

/-- The first instant a `DateTime<Utc>` can hold, midnight of -262143-01-01. -/
def dateTimeMin : Time := -8334601315200 * 10 ^ 9

/-- The last instant a `DateTime<Utc>` can hold, the end of 262142-12-31. -/
def dateTimeMax : Time := 8210266876799 * 10 ^ 9 + 999999999

/-- `Duration::seconds`, which panics outside the range of a `TimeDelta`. -/
def durationSeconds (seconds : ℤ) : Option ℤ :=
  if -9223372036854775 ≤ seconds ∧ seconds ≤ 9223372036854775 then
    some (seconds * 10 ^ 9)
  else none

/-- `lease_seconds.max(1) as i64`: the cast wraps from 2^63 on. -/
def leaseSecondsI64 (leaseSeconds : UInt64) : ℤ :=
  (max leaseSeconds 1).toInt64.toInt

/-- `now + Duration::seconds(lease_seconds.max(1) as i64)`, `none` where chrono
panics. -/
def leaseExpiresAt (now : Time) (leaseSeconds : UInt64) : Option Time :=
  match durationSeconds (leaseSecondsI64 leaseSeconds) with
  | none => none
  | some duration =>
      if dateTimeMin ≤ now + duration ∧ now + duration ≤ dateTimeMax then
        some (now + duration)
      else none

def leaseOverflow : Fault := .panic "lease expiry is out of range"

/-- What a completion writes into the stored job. -/
structure Completion (Solution : Type) where
  status : JobStatus
  completedAt : Option Time
  solution : Option Solution
  error : Option String

/-- What happens to the lease of one job. -/
abbrev LeaseEvent (Solution : Type) := LeaseProtocol.Event String Time (Completion Solution)

/-! ## The candidate loop -/

/-- `TimeDelta::num_milliseconds` truncates toward zero. -/
def numMilliseconds (delta : ℤ) : ℤ := delta.tdiv (10 ^ 6)

/-- `f64::MAX / 4.0`, the score of an owner that was never served. -/
def unservedScore : ℚ := (2 ^ 1024 - 2 ^ 971) / 4

/-- Elapsed seconds since the owner was last served times the clamped queue
weight, in exact arithmetic. -/
def candidateScore (now : Time) (lastServed : Option Time) (queueWeight : ℚ) : ℚ :=
  match lastServed with
  | some last => (numMilliseconds (now - last) : ℚ) / 1000 * max queueWeight (1 / 100)
  | none => unservedScore

section Candidates

variable {Options Solution : Type}

/-- The scored job replaces the best one so far if its score is greater, or if
the scores are equal and it was created earlier. -/
def takeIfBetter (best : Option (ℚ × JobRecord Options Solution)) (score : ℚ)
    (job : JobRecord Options Solution) : Option (ℚ × JobRecord Options Solution) :=
  match best with
  | none => some (score, job)
  | some (bestScore, bestJob) =>
      if bestScore < score ∨
          (score = bestScore ∧ job.createdAt < bestJob.createdAt) then
        some (score, job)
      else some (bestScore, bestJob)

/-- One pass of the loop over jobs whose owners were last served as displayed. -/
def bestCandidate (now : Time) (lastServed : String → Option Time) :
    List (JobRecord Options Solution) →
      Option (ℚ × JobRecord Options Solution) → Option (ℚ × JobRecord Options Solution)
  | [], best => best
  | job :: rest, best =>
      bestCandidate now lastServed rest
        (takeIfBetter best (candidateScore now (lastServed job.owner) job.queueWeight) job)

/-- The order of the loop: a larger score first, then an earlier creation. -/
def Outranks (first second : ℚ × JobRecord Options Solution) : Prop :=
  second.1 < first.1 ∨
    (second.1 = first.1 ∧ first.2.createdAt ≤ second.2.createdAt)

theorem Outranks.refl (candidate : ℚ × JobRecord Options Solution) :
    Outranks candidate candidate := .inr ⟨rfl, le_refl _⟩

theorem Outranks.trans {first second third : ℚ × JobRecord Options Solution}
    (hfirst : Outranks first second) (hsecond : Outranks second third) :
    Outranks first third := by
  rcases hfirst with hlt | ⟨heq, hle⟩
  · rcases hsecond with hlt' | ⟨heq', _⟩
    · exact .inl (hlt'.trans hlt)
    · exact .inl (heq' ▸ hlt)
  · rcases hsecond with hlt' | ⟨heq', hle'⟩
    · exact .inl (heq ▸ hlt')
    · exact .inr ⟨heq'.trans heq, hle.trans hle'⟩

theorem takeIfBetter_spec (best : Option (ℚ × JobRecord Options Solution))
    (score : ℚ) (job : JobRecord Options Solution) :
    ∃ chosen, takeIfBetter best score job = some chosen ∧
      (chosen = (score, job) ∨ best = some chosen) ∧
      Outranks chosen (score, job) ∧
      ∀ old, best = some old → Outranks chosen old := by
  cases best with
  | none => exact ⟨(score, job), rfl, .inl rfl, .refl _, by simp⟩
  | some old =>
      obtain ⟨oldScore, oldJob⟩ := old
      by_cases hbetter : oldScore < score ∨
          (score = oldScore ∧ job.createdAt < oldJob.createdAt)
      · refine ⟨(score, job), by simp [takeIfBetter, hbetter], .inl rfl, .refl _, ?_⟩
        rintro _ ⟨rfl⟩
        rcases hbetter with hlt | ⟨heq, hlt⟩
        · exact .inl hlt
        · exact .inr ⟨heq.symm, hlt.le⟩
      · refine ⟨(oldScore, oldJob), by simp [takeIfBetter, hbetter], .inr rfl, ?_, ?_⟩
        · push Not at hbetter
          rcases lt_or_eq_of_le hbetter.1 with hlt | heq
          · exact .inl hlt
          · exact .inr ⟨heq, hbetter.2 heq⟩
        · rintro _ ⟨rfl⟩
          exact .refl _

/-- The loop returns a scanned job with its score, and that job outranks every
scanned job. -/
theorem bestCandidate_spec (now : Time) (lastServed : String → Option Time)
    (jobs : List (JobRecord Options Solution))
    (best : Option (ℚ × JobRecord Options Solution))
    {chosen : ℚ × JobRecord Options Solution}
    (hchosen : bestCandidate now lastServed jobs best = some chosen) :
    (best = some chosen ∨
      ∃ job ∈ jobs,
        chosen = (candidateScore now (lastServed job.owner) job.queueWeight, job)) ∧
    (∀ old, best = some old → Outranks chosen old) ∧
    ∀ job ∈ jobs,
      Outranks chosen
        (candidateScore now (lastServed job.owner) job.queueWeight, job) := by
  induction jobs generalizing best with
  | nil =>
      simp only [bestCandidate] at hchosen
      refine ⟨.inl hchosen, ?_, by simp⟩
      intro old hold
      rw [hchosen] at hold
      rw [Option.some.inj hold]
      exact .refl _
  | cons job rest ih =>
      simp only [bestCandidate] at hchosen
      obtain ⟨picked, hpicked, horigin, hjob, hold⟩ :=
        takeIfBetter_spec best
          (candidateScore now (lastServed job.owner) job.queueWeight) job
      rw [hpicked] at hchosen
      obtain ⟨hsource, hbest, hrest⟩ := ih (some picked) hchosen
      have hchain := hbest picked rfl
      refine ⟨?_, ?_, ?_⟩
      · rcases hsource with hsame | ⟨other, hmem, heq⟩
        · rw [← Option.some.inj hsame]
          rcases horigin with heq | heq
          · exact .inr ⟨job, List.mem_cons_self, heq⟩
          · exact .inl heq
        · exact .inr ⟨other, List.mem_cons_of_mem _ hmem, heq⟩
      · intro old holdEq
        exact hchain.trans (hold old holdEq)
      · intro other hmem
        rcases List.mem_cons.mp hmem with rfl | htail
        · exact hchain.trans hjob
        · exact hrest other htail

end Candidates

end SeizaServer
