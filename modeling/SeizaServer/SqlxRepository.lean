import SeizaServer.InteractionProgram
import SeizaServer.KeyedTable
import SeizaServer.StoredTimes
import Mathlib.Data.List.Sort

/-!
# The SQLx job repository

The four tables of the `jobs_v2` schema, the statements the repository issues,
and the repository methods as programs over these statements.  A statement is
named after what its text does; `Database.run` is the meaning of the text.
Identifiers, instants and JSON columns are kept decoded; leases are compared as
the texts of their instants.
-/

namespace SeizaServer

open Interaction

inductive SqlDialect where
  | sqlite
  | postgres
  deriving DecidableEq, Repr

/-! ## Rows and tables -/

/-- A row of `jobs_v2`. -/
structure JobRow (Options Solution : Type) where
  id : JobId
  astrometryId : ℕ
  legacyId : Option ℤ
  owner : String
  queueWeight : ℚ
  objectKey : String
  originalFilename : String
  contentType : Option String
  optionsJson : Options
  status : JobStatus
  createdAt : Time
  startedAt : Option Time
  completedAt : Option Time
  solutionJson : Option Solution
  error : Option String
  leaseToken : Option String
  leaseExpiresAt : Option Time
  attempts : ℕ
  deriving DecidableEq

/-- A row of `validation_donations_v2`. -/
structure DonationRow where
  jobId : JobId
  objectKey : String
  comment : Option String
  solveIsInvalid : Bool
  licenseVersion : String
  donatedAt : Time
  deriving DecidableEq

/-- A row of `client_service`. -/
structure ClientRow where
  owner : String
  lastServedAt : Time
  deriving DecidableEq

/-- A row of `queue_outbox_v2`. -/
structure OutboxRow where
  jobId : JobId
  deliveredAt : Option Time
  deriving DecidableEq

structure Database (Options Solution : Type) where
  jobs : KeyedTable (JobRow Options Solution) JobId JobRow.id
  donations : KeyedTable DonationRow JobId DonationRow.jobId
  clientService : KeyedTable ClientRow String ClientRow.owner
  outbox : KeyedTable OutboxRow JobId OutboxRow.jobId

variable {Options Solution : Type}

def Database.empty : Database Options Solution :=
  ⟨.empty, .empty, .empty, .empty⟩

/-- `status = 'solving' AND lease_expires_at <= $now`. -/
def JobRow.expiredBy [TimeStore] (row : JobRow Options Solution) (now : Time) : Bool :=
  row.status = .solving && row.leaseExpiresAt.any fun expires =>
    (TimeStore.compare expires now).isLE

/-- `status = 'solving' AND lease_token = $token AND lease_expires_at > $now`. -/
def JobRow.leasedTo [TimeStore] (row : JobRow Options Solution) (token : String) (now : Time) :
    Bool :=
  row.status = .solving && row.leaseToken = some token &&
    row.leaseExpiresAt.any fun expires => (TimeStore.compare expires now).isGT

/-- The assignments of the reclaiming `UPDATE`. -/
def JobRow.requeued (row : JobRow Options Solution) : JobRow Options Solution :=
  { row with status := .queued, leaseToken := none, leaseExpiresAt := none }

/-- The assignments of the claiming `UPDATE`. -/
def JobRow.taken (row : JobRow Options Solution) (now : Time) (token : String)
    (expires : Time) : JobRow Options Solution :=
  { row with
    status := .solving
    startedAt := some now
    leaseToken := some token
    leaseExpiresAt := some expires
    attempts := row.attempts + 1 }

/-- The assignment of the heartbeat's `UPDATE`. -/
def JobRow.extended (row : JobRow Options Solution) (expires : Time) :
    JobRow Options Solution :=
  { row with leaseExpiresAt := some expires }

/-- The assignments of the completing `UPDATE`. -/
def JobRow.finished (row : JobRow Options Solution) (status : JobStatus) (now : Time)
    (solution : Option Solution) (error : Option String) : JobRow Options Solution :=
  { row with
    status := status
    completedAt := some now
    solutionJson := solution
    error := error
    leaseToken := none
    leaseExpiresAt := none }

@[simp] theorem JobRow.requeued_id (row : JobRow Options Solution) :
    row.requeued.id = row.id := rfl

@[simp] theorem JobRow.taken_id (row : JobRow Options Solution) (now : Time) (token : String)
    (expires : Time) : (row.taken now token expires).id = row.id := rfl

@[simp] theorem JobRow.extended_id (row : JobRow Options Solution) (expires : Time) :
    (row.extended expires).id = row.id := rfl

@[simp] theorem JobRow.finished_id (row : JobRow Options Solution) (status : JobStatus)
    (now : Time) (solution : Option Solution) (error : Option String) :
    (row.finished status now solution error).id = row.id := rfl

/-- The row the `INSERT` of `enqueue` writes; the columns it does not name are
NULL or their default. -/
def JobRow.inserted (job : JobRecord Options Solution) : JobRow Options Solution where
  id := job.id
  astrometryId := job.astrometryId
  legacyId := none
  owner := job.owner
  queueWeight := job.queueWeight
  objectKey := job.objectKey
  originalFilename := job.originalFilename
  contentType := job.contentType
  optionsJson := job.options
  status := .queued
  createdAt := job.createdAt
  startedAt := none
  completedAt := none
  solutionJson := none
  error := none
  leaseToken := none
  leaseExpiresAt := none
  attempts := 0

@[simp] theorem JobRow.inserted_id (job : JobRecord Options Solution) :
    (JobRow.inserted job).id = job.id := rfl

def recordFromRow (row : JobRow Options Solution) : JobRecord Options Solution where
  id := row.id
  astrometryId := row.astrometryId
  owner := row.owner
  queueWeight := row.queueWeight
  objectKey := row.objectKey
  originalFilename := row.originalFilename
  contentType := row.contentType
  options := row.optionsJson
  status := row.status
  createdAt := row.createdAt
  startedAt := row.startedAt
  completedAt := row.completedAt
  solution := row.solutionJson
  error := row.error
  validationDonation := none

def DonationRow.donation (row : DonationRow) : ValidationDonation where
  objectKey := row.objectKey
  comment := row.comment
  solveIsInvalid := row.solveIsInvalid
  licenseVersion := row.licenseVersion
  donatedAt := row.donatedAt

/-! ## Statements -/

/-- The statements with the values bound to them. -/
inductive Statement (Options Solution : Type) where
  | advisoryLock
  | selectExpired (now : Time)
  | requeueExpired (id : JobId)
  | resetNotification (id : JobId)
  | selectLastServed (owner : String)
  | selectQueuedJob (id : JobId)
  | selectQueuedJobs
  | insertJob (job : JobRecord Options Solution)
  | insertNotification (id : JobId)
  | selectJob (id : JobId)
  | selectJobByObjectKey (objectKey : String)
  | selectDonation (id : JobId)
  | takeLease (now : Time) (token : String) (expires : Time) (id : JobId)
  | upsertClientService (owner : String) (now : Time)
  | extendLease (expires : Time) (id : JobId) (token : String) (now : Time)
  | selectInputKey (id : JobId) (token : String) (now : Time)
  | finishJob (status : JobStatus) (now : Time) (solution : Option Solution)
      (error : Option String) (id : JobId) (token : String)
  | selectStatus (id : JobId)
  | upsertDonation (id : JobId) (donation : ValidationDonation)
  | selectPending (limit : ℕ)
  | markDelivered (now : Time) (id : JobId)

/-- Selected rows, or the number of affected rows. -/
@[reducible] def Statement.Answer : Statement Options Solution → Type
  | .advisoryLock => Unit
  | .selectExpired _ => List JobId
  | .requeueExpired _ => ℕ
  | .resetNotification _ => ℕ
  | .selectLastServed _ => Option Time
  | .selectQueuedJob _ => Option (JobRow Options Solution)
  | .selectQueuedJobs => List (JobRow Options Solution)
  | .insertJob _ => ℕ
  | .insertNotification _ => ℕ
  | .selectJob _ => Option (JobRow Options Solution)
  | .selectJobByObjectKey _ => Option (JobRow Options Solution)
  | .selectDonation _ => Option DonationRow
  | .takeLease .. => ℕ
  | .upsertClientService .. => ℕ
  | .extendLease .. => ℕ
  | .selectInputKey .. => Option String
  | .finishJob .. => ℕ
  | .selectStatus _ => Option JobStatus
  | .upsertDonation .. => ℕ
  | .selectPending _ => List JobId
  | .markDelivered .. => ℕ

def uniqueViolation (index : String) : Fault :=
  .database ("UNIQUE constraint failed: " ++ index)

namespace Database

/-- `UPDATE jobs_v2 SET … WHERE id = $id AND …`. -/
def updateJob (db : Database Options Solution) (id : JobId)
    (condition : JobRow Options Solution → Bool)
    (assign : JobRow Options Solution → JobRow Options Solution)
    (hassign : ∀ row, (assign row).id = row.id) :
    Database Options Solution × ℕ :=
  ({ db with
      jobs := db.jobs.modify (fun row => row.id = id && condition row) assign hassign },
    db.jobs.affected fun row => row.id = id && condition row)

/-- The insert of `enqueue`: a taken object key is skipped before any other
unique index is consulted, and every other duplicate is an error. -/
def insertJob (db : Database Options Solution) (job : JobRecord Options Solution) :
    Except Fault (Database Options Solution × ℕ) :=
  if db.jobs.rows.any fun row => row.objectKey = job.objectKey then .ok (db, 0)
  else if db.jobs.rows.any fun row => row.astrometryId = job.astrometryId then
    .error (uniqueViolation "jobs_v2.astrometry_id")
  else
    match db.jobs.insert? (JobRow.inserted job) with
    | none => .error (uniqueViolation "jobs_v2.id")
    | some jobs => .ok ({ db with jobs := jobs }, 1)

/-- The upsert of `donate_validation`.  The conflict clause covers the job id
only, so an object key donated for another job is an error. -/
def upsertDonation (db : Database Options Solution) (id : JobId)
    (donation : ValidationDonation) : Except Fault (Database Options Solution × ℕ) :=
  if db.donations.rows.any fun row =>
      row.objectKey = donation.objectKey && row.jobId ≠ id then
    .error (uniqueViolation "validation_donations_v2.object_key")
  else
    .ok ({ db with
        donations := db.donations.upsert
          { jobId := id
            objectKey := donation.objectKey
            comment := donation.comment
            solveIsInvalid := donation.solveIsInvalid
            licenseVersion := donation.licenseVersion
            donatedAt := donation.donatedAt }
          (fun row => { row with
            objectKey := donation.objectKey
            comment := donation.comment
            solveIsInvalid := donation.solveIsInvalid }) }, 1)

/-- The undelivered notifications of existing jobs, oldest job first. -/
def pending (db : Database Options Solution) : List JobId :=
  ((db.outbox.rows.filterMap fun note =>
      if note.deliveredAt = none then
        (db.jobs.find? note.jobId).map fun job => (note.jobId, job.createdAt)
      else none).insertionSort fun first second => first.2 ≤ second.2).map Prod.fst

/-- Execute one statement.  Rows with equal sort keys come in insertion
order. -/
def run [TimeStore] (db : Database Options Solution) :
    (statement : Statement Options Solution) →
      Except Fault (Database Options Solution × statement.Answer)
  | .advisoryLock => .ok (db, ())
  | .selectExpired now =>
      .ok (db, (db.jobs.rows.filter fun row => row.expiredBy now).map JobRow.id)
  | .requeueExpired id =>
      .ok (db.updateJob id (fun row => row.status = .solving) JobRow.requeued JobRow.requeued_id)
  | .resetNotification id =>
      .ok ({ db with
          outbox := db.outbox.upsert ⟨id, none⟩ fun row => { row with deliveredAt := none } }, 1)
  | .selectLastServed owner =>
      .ok (db, (db.clientService.find? owner).map ClientRow.lastServedAt)
  | .selectQueuedJob id =>
      .ok (db, (db.jobs.find? id).filter fun row => row.status = .queued)
  | .selectQueuedJobs =>
      .ok (db, (db.jobs.rows.filter fun row => row.status = .queued).insertionSort
        fun first second => first.createdAt ≤ second.createdAt)
  | .insertJob job => db.insertJob job
  | .insertNotification id =>
      match db.outbox.insert? ⟨id, none⟩ with
      | none => .error (uniqueViolation "queue_outbox_v2.job_id")
      | some outbox => .ok ({ db with outbox := outbox }, 1)
  | .selectJob id => .ok (db, db.jobs.find? id)
  | .selectJobByObjectKey objectKey =>
      .ok (db, db.jobs.rows.find? fun row => row.objectKey = objectKey)
  | .selectDonation id => .ok (db, db.donations.find? id)
  | .takeLease now token expires id =>
      .ok (db.updateJob id (fun row => row.status = .queued)
        (fun row => row.taken now token expires) fun row => row.taken_id now token expires)
  | .upsertClientService owner now =>
      .ok ({ db with
          clientService := db.clientService.upsert ⟨owner, now⟩
            fun row => { row with lastServedAt := now } }, 1)
  | .extendLease expires id token now =>
      .ok (db.updateJob id (fun row => row.leasedTo token now)
        (fun row => row.extended expires) fun row => row.extended_id expires)
  | .selectInputKey id token now =>
      .ok (db, ((db.jobs.find? id).filter fun row => row.leasedTo token now).map fun row =>
        ((db.donations.find? id).map DonationRow.objectKey).getD row.objectKey)
  | .finishJob status now solution error id token =>
      .ok (db.updateJob id (fun row => row.leasedTo token now)
        (fun row => row.finished status now solution error)
        fun row => row.finished_id status now solution error)
  | .selectStatus id => .ok (db, (db.jobs.find? id).map JobRow.status)
  | .upsertDonation id donation => db.upsertDonation id donation
  | .selectPending limit => .ok (db, db.pending.take limit)
  | .markDelivered now id =>
      .ok ({ db with
          outbox := db.outbox.modify (fun row => row.jobId = id)
            fun row => { row with deliveredAt := some now } },
        db.outbox.affected fun row => row.jobId = id)

end Database

/-! ## Programs -/

/-- What a repository method asks for: transaction control, the clock, a fresh
UUID, or a statement. -/
inductive SqlRequest (Options Solution : Type) where
  | begin
  | beginImmediate
  | commit
  | rollback
  | utcNow
  | uuidV7
  | query (statement : Statement Options Solution)

@[reducible] def SqlRequest.Response : SqlRequest Options Solution → Type
  | .begin => Unit
  | .beginImmediate => Unit
  | .commit => Unit
  | .rollback => Unit
  | .utcNow => Time
  | .uuidV7 => String
  | .query statement => statement.Answer

abbrev SqlProgram (Options Solution : Type) :=
  Program (SqlRequest Options Solution) SqlRequest.Response Fault

def query (statement : Statement Options Solution) :
    SqlProgram Options Solution statement.Answer :=
  .request (.query statement) .done

def begin : SqlProgram Options Solution Unit := .request .begin .done

def beginImmediate : SqlProgram Options Solution Unit := .request .beginImmediate .done

def commit : SqlProgram Options Solution Unit := .request .commit .done

def rollback : SqlProgram Options Solution Unit := .request .rollback .done

def utcNow : SqlProgram Options Solution Time := .request .utcNow .done

def uuidV7 : SqlProgram Options Solution String := .request .uuidV7 .done

namespace SqlxJobRepository

def requeueEach : List JobId → SqlProgram Options Solution Unit
  | [] => pure ()
  | id :: rest => do
      let _ ← query (.requeueExpired id)
      let _ ← query (.resetNotification id)
      requeueEach rest

def reclaimExpired (now : Time) : SqlProgram Options Solution Unit := do
  let expired ← query (.selectExpired now)
  requeueEach expired

def lastServed (owner : String) : SqlProgram Options Solution (Option Time) :=
  query (.selectLastServed owner)

def scoreCandidates (now : Time) :
    List (JobRow Options Solution) → Option (ℚ × JobRecord Options Solution) →
      SqlProgram Options Solution (Option (ℚ × JobRecord Options Solution))
  | [], best => pure best
  | row :: rest, best => do
      let job := recordFromRow row
      let last ← lastServed job.owner
      scoreCandidates now rest
        (takeIfBetter best (candidateScore now last job.queueWeight) job)

def selectCandidate (requestedJobId : Option JobId) (now : Time) :
    SqlProgram Options Solution (Option (JobRecord Options Solution)) :=
  match requestedJobId with
  | some id => do
      let row ← query (.selectQueuedJob id)
      pure (row.map recordFromRow)
  | none => do
      let rows ← query .selectQueuedJobs
      let best ← scoreCandidates now rows none
      pure (best.map Prod.snd)

def validationDonation (id : JobId) :
    SqlProgram Options Solution (Option ValidationDonation) := do
  let row ← query (.selectDonation id)
  pure (row.map DonationRow.donation)

/-- The record of a selected row, with the donation of its job. -/
def withDonation (row : Option (JobRow Options Solution)) :
    SqlProgram Options Solution (Option (JobRecord Options Solution)) :=
  match row with
  | none => pure none
  | some row => do
      let donation ← validationDonation row.id
      pure (some { recordFromRow row with validationDonation := donation })

def get (id : JobId) : SqlProgram Options Solution (Option (JobRecord Options Solution)) := do
  let row ← query (.selectJob id)
  withDonation row

def findByObjectKey (objectKey : String) :
    SqlProgram Options Solution (Option (JobRecord Options Solution)) := do
  let row ← query (.selectJobByObjectKey objectKey)
  withDonation row

def enqueue (job : JobRecord Options Solution) :
    SqlProgram Options Solution (JobRecord Options Solution) := do
  begin
  let job := enqueuedRecord job
  let inserted ← query (.insertJob job)
  if inserted = 0 then do
    rollback
    let existing ← findByObjectKey job.objectKey
    match existing with
    | some existing => pure existing
    | none =>
        .fault (.bail "idempotent SQL enqueue could not find the existing job")
  else do
    let _ ← query (.insertNotification job.id)
    commit
    pure job

/-- The selection policy is global: SQLite takes its write reservation before
the first read. -/
def beginClaim : SqlDialect → SqlProgram Options Solution Unit
  | .sqlite => beginImmediate
  | .postgres => begin

/-- On PostgreSQL one transaction-scoped advisory lock serves the same end. -/
def lockSelection : SqlDialect → SqlProgram Options Solution Unit
  | .sqlite => pure ()
  | .postgres => query .advisoryLock

def claim (dialect : SqlDialect) (requestedJobId : Option JobId) (leaseSeconds : UInt64) :
    SqlProgram Options Solution (Option (JobLease Options)) := do
  beginClaim dialect
  let now ← utcNow
  lockSelection dialect
  reclaimExpired now
  let candidate ← selectCandidate requestedJobId now
  match candidate with
  | none => do
      commit
      pure none
  | some job => do
      let leaseToken ← uuidV7
      match leaseExpiresAt now leaseSeconds with
      | none => .fault leaseOverflow
      | some expires => do
          let claimed ← query (.takeLease now leaseToken expires job.id)
          if claimed = 1 then do
            let _ ← query (.upsertClientService job.owner now)
            commit
            pure (some
              { jobId := job.id
                leaseToken := leaseToken
                leaseExpiresAt := expires
                originalFilename := job.originalFilename
                options := job.options })
          else do
            rollback
            pure none

def heartbeat (id : JobId) (leaseToken : String) (leaseSeconds : UInt64) :
    SqlProgram Options Solution Bool := do
  let now ← utcNow
  match leaseExpiresAt now leaseSeconds with
  | none => .fault leaseOverflow
  | some expires => do
      let rows ← query (.extendLease expires id leaseToken now)
      pure (decide (rows = 1))

def inputKey (id : JobId) (leaseToken : String) :
    SqlProgram Options Solution (Option String) := do
  let now ← utcNow
  query (.selectInputKey id leaseToken now)

def complete (id : JobId) (leaseToken : String) (solution : Option Solution)
    (error : Option String) : SqlProgram Options Solution Bool :=
  if solution.isNone ∧ error.isNone then
    .fault (.bail "worker completion requires a solution or an error")
  else do
    let now ← utcNow
    let status := if solution.isSome then JobStatus.succeeded else .failed
    let rows ← query (.finishJob status now solution error id leaseToken)
    pure (decide (rows = 1))

def donateValidation (id : JobId) (donation : ValidationDonation) :
    SqlProgram Options Solution Bool := do
  begin
  let status ← query (.selectStatus id)
  if status.any JobStatus.terminal then do
    let _ ← query (.upsertDonation id donation)
    commit
    pure true
  else do
    rollback
    pure false

def pendingNotifications (limit : ℕ) : SqlProgram Options Solution (List JobId) := do
  begin
  let now ← utcNow
  reclaimExpired now
  let rows ← query (.selectPending limit)
  commit
  pure rows

def markNotificationDelivered (id : JobId) : SqlProgram Options Solution Unit := do
  let now ← utcNow
  let _ ← query (.markDelivered now id)
  pure ()

end SqlxJobRepository

end SeizaServer
