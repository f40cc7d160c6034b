import SeizaServer.DynamoTable
import SeizaServer.InteractionProgram

/-!
# The DynamoDB job repository

The requests to the table and the repository methods as programs over them.
A read of an index, with all its pages, is one request.
-/

namespace SeizaServer

open Interaction

variable {Options Solution : Type} [TimeStore]

/-! ## Requests -/

/-- How a write ends: it was applied, it was refused by a failed condition or a
cancelled transaction, or it failed in some other way. -/
inductive WriteOutcome where
  | written
  | refused
  | failed (cause : Fault)
  deriving DecidableEq

inductive DynamoRequest (Options Solution : Type) where
  | utcNow
  | uuidV7
  | getJob (id : JobId) (consistentRead : Bool)
  | getObjectIndex (objectKey : String)
  | getClient (owner : String)
  | queryStatus (status : JobStatus) (createdBefore : Option Time) (undeliveredOnly : Bool)
      (limit : Option ℕ)
  | scanObjectKey (objectKey : String)
  | write (write : DynamoWrite Options Solution)

@[reducible] def DynamoRequest.Response : DynamoRequest Options Solution → Type
  | .utcNow => Time
  | .uuidV7 => String
  | .getJob .. => Except Fault (Option (JobItem Options Solution))
  | .getObjectIndex _ => Except Fault (Option JobId)
  | .getClient _ => Except Fault (Option Time)
  | .queryStatus .. => Except Fault (List JobId)
  | .scanObjectKey _ => Except Fault (Option (JobItem Options Solution))
  | .write _ => WriteOutcome

abbrev DynamoProgram (Options Solution : Type) :=
  Program (DynamoRequest Options Solution) DynamoRequest.Response Fault

namespace Dynamo

def utcNow : DynamoProgram Options Solution Time := .request .utcNow .done

def uuidV7 : DynamoProgram Options Solution String := .request .uuidV7 .done

def getJob (id : JobId) (consistentRead : Bool) :
    DynamoProgram Options Solution (Option (JobItem Options Solution)) :=
  .request (.getJob id consistentRead) Program.ofExcept

def getObjectIndex (objectKey : String) : DynamoProgram Options Solution (Option JobId) :=
  .request (.getObjectIndex objectKey) Program.ofExcept

def getClient (owner : String) : DynamoProgram Options Solution (Option Time) :=
  .request (.getClient owner) Program.ofExcept

def queryStatus (status : JobStatus) (createdBefore : Option Time) (undeliveredOnly : Bool)
    (limit : Option ℕ) : DynamoProgram Options Solution (List JobId) :=
  .request (.queryStatus status createdBefore undeliveredOnly limit) Program.ofExcept

def scanObjectKey (objectKey : String) :
    DynamoProgram Options Solution (Option (JobItem Options Solution)) :=
  .request (.scanObjectKey objectKey) Program.ofExcept

def write (write : DynamoWrite Options Solution) : DynamoProgram Options Solution WriteOutcome :=
  .request (.write write) .done

end Dynamo

/-! ## Programs -/

namespace DynamoDbJobRepository

def jobIdsByStatus (status : JobStatus) (createdBefore : Option Time) (undeliveredOnly : Bool)
    (limit : Option ℕ) : DynamoProgram Options Solution (List JobId) :=
  if limit = some 0 then pure []
  else Dynamo.queryStatus status createdBefore undeliveredOnly limit

def clientLastServed (owner : String) : DynamoProgram Options Solution (Option Time) :=
  Dynamo.getClient owner

/-- The record of an item that was read, if there is one. -/
def decodeItem (item : Option (JobItem Options Solution)) :
    DynamoProgram Options Solution (Option (JobRecord Options Solution)) :=
  match item with
  | none => pure none
  | some item => Program.ofExcept ((recordFromItem item).map some)

def get (id : JobId) : DynamoProgram Options Solution (Option (JobRecord Options Solution)) := do
  let item ← Dynamo.getJob id false
  decodeItem item

/-- A lease that was renewed or reclaimed meanwhile is passed over. -/
def requeueEach (now : Time) : List JobId → DynamoProgram Options Solution Unit
  | [] => pure ()
  | id :: rest => do
      let outcome ← Dynamo.write (.update id (.requeue now))
      match outcome with
      | .written => requeueEach now rest
      | .refused => requeueEach now rest
      | .failed cause => .fault cause

def reclaimExpired (now : Time) : DynamoProgram Options Solution Unit := do
  let ids ← jobIdsByStatus .solving none false none
  requeueEach now ids

/-- The jobs among these which are queued when they are read. -/
def loadQueued : List JobId → DynamoProgram Options Solution (List (JobRecord Options Solution))
  | [] => pure []
  | id :: rest => do
      let job ← get id
      let jobs ← loadQueued rest
      pure ((job.filter fun job => job.status = .queued).toList ++ jobs)

def scoreCandidates (now : Time) :
    List (JobRecord Options Solution) → Option (ℚ × JobRecord Options Solution) →
      DynamoProgram Options Solution (Option (ℚ × JobRecord Options Solution))
  | [], best => pure best
  | job :: rest, best => do
      let last ← clientLastServed job.owner
      scoreCandidates now rest
        (takeIfBetter best (candidateScore now last job.queueWeight) job)

def queuedCandidate (now : Time) :
    DynamoProgram Options Solution (Option (JobRecord Options Solution)) := do
  let ids ← jobIdsByStatus .queued none false none
  let jobs ← loadQueued ids
  let best ← scoreCandidates now jobs none
  pure (best.map Prod.snd)

/-- Whether the requested job can be claimed, from its item and its record. -/
def eligibility (item : JobItem Options Solution) (job : JobRecord Options Solution) (now : Time) :
    Option ClaimEligibility :=
  match job.status with
  | .queued => some .queued
  | .solving =>
      if (item.attributes.bind JobAttributes.leaseExpiresAt).any fun expires => expires ≤ now then
        some .expiredLease
      else none
  | .succeeded => none
  | .failed => none

def requestedCandidate (id : JobId) (now : Time) :
    DynamoProgram Options Solution
      (Option (JobRecord Options Solution × ClaimEligibility)) := do
  let found ← Dynamo.getJob id true
  match found with
  | none => pure none
  | some item => do
      let job ← Program.ofExcept (recordFromItem item)
      pure ((eligibility item job now).map fun eligible => (job, eligible))

/-- The job to claim and the condition under which it is claimed. -/
def selectCandidate (requestedJobId : Option JobId) (now : Time) :
    DynamoProgram Options Solution
      (Option (JobRecord Options Solution × ClaimEligibility)) :=
  match requestedJobId with
  | some id => requestedCandidate id now
  | none => do
      reclaimExpired now
      let job ← queuedCandidate now
      pure (job.map fun job => (job, .queued))

def claim (requestedJobId : Option JobId) (leaseSeconds : UInt64) :
    DynamoProgram Options Solution (Option (JobLease Options)) := do
  let now ← Dynamo.utcNow
  let candidate ← selectCandidate requestedJobId now
  match candidate with
  | none => pure none
  | some (job, eligible) => do
      let leaseToken ← Dynamo.uuidV7
      match SeizaServer.leaseExpiresAt now leaseSeconds with
      | none => .fault leaseOverflow
      | some expires => do
          let outcome ← Dynamo.write (.claim job.id job.owner ⟨eligible, now, leaseToken, expires⟩)
          match outcome with
          | .written =>
              pure (some
                { jobId := job.id
                  leaseToken := leaseToken
                  leaseExpiresAt := expires
                  originalFilename := job.originalFilename
                  options := job.options })
          | .refused => pure none
          | .failed cause => .fault cause

def findByObjectKey (objectKey : String) :
    DynamoProgram Options Solution (Option (JobRecord Options Solution)) := do
  let indexed ← Dynamo.getObjectIndex objectKey
  match indexed with
  | some id => do
      let item ← Dynamo.getJob id true
      decodeItem item
  | none => do
      let item ← Dynamo.scanObjectKey objectKey
      decodeItem item

def enqueue (job : JobRecord Options Solution) :
    DynamoProgram Options Solution (JobRecord Options Solution) := do
  let outcome ← Dynamo.write (.enqueue job)
  match outcome with
  | .written => pure (enqueuedRecord job)
  | .refused => do
      let existing ← findByObjectKey job.objectKey
      match existing with
      | some existing => pure existing
      | none =>
          .fault (.bail "idempotent DynamoDB enqueue could not find the existing job")
  | .failed cause => .fault cause

/-- The answer of a call that asks whether its conditional update applied. -/
def accepted : WriteOutcome → DynamoProgram Options Solution Bool
  | .written => pure true
  | .refused => pure false
  | .failed cause => .fault cause

def heartbeat (id : JobId) (leaseToken : String) (leaseSeconds : UInt64) :
    DynamoProgram Options Solution Bool := do
  let now ← Dynamo.utcNow
  match SeizaServer.leaseExpiresAt now leaseSeconds with
  | none => .fault leaseOverflow
  | some expires => do
      let outcome ← Dynamo.write (.update id (.renew leaseToken now expires))
      accepted outcome

/-- The clock is read only for an item that carries the token and an expiry. -/
def leaseActive (item : Option (JobItem Options Solution)) (leaseToken : String) :
    DynamoProgram Options Solution Bool :=
  match (item.bind JobItem.attributes).filter fun attributes =>
      attributes.leaseToken = some leaseToken with
  | none => pure false
  | some attributes =>
      match attributes.leaseExpiresAt with
      | none => pure false
      | some expires => do
          let now ← Dynamo.utcNow
          pure (decide (now < expires))

def inputKey (id : JobId) (leaseToken : String) :
    DynamoProgram Options Solution (Option String) := do
  let found ← get id
  match found with
  | none => pure none
  | some job => do
      let item ← Dynamo.getJob id false
      let active ← leaseActive item leaseToken
      pure (if job.status = .solving ∧ active = true then some job.inputObjectKey else none)

def complete (id : JobId) (leaseToken : String) (solution : Option Solution)
    (error : Option String) : DynamoProgram Options Solution Bool :=
  if solution.isNone ∧ error.isNone then
    .fault (.bail "worker completion requires a solution or an error")
  else do
    let now ← Dynamo.utcNow
    let outcome ← Dynamo.write (.update id (.complete leaseToken now solution error))
    accepted outcome

def donateValidation (id : JobId) (donation : ValidationDonation) :
    DynamoProgram Options Solution Bool := do
  let outcome ← Dynamo.write (.update id (.donate donation))
  accepted outcome

/-- Jobs younger than the recovery delay are left to the call that submitted
them. -/
def pendingNotifications (recoveryDelay : ℤ) (limit : ℕ) :
    DynamoProgram Options Solution (List JobId) := do
  let now ← Dynamo.utcNow
  jobIdsByStatus .queued (some (now - recoveryDelay)) true (some limit)

def markNotificationDelivered (id : JobId) : DynamoProgram Options Solution Unit := do
  let now ← Dynamo.utcNow
  let outcome ← Dynamo.write (.update id (.markDelivered now))
  match outcome with
  | .failed cause => .fault cause
  | _ => pure ()

end DynamoDbJobRepository

/-- The program of a call on the DynamoDB backend. -/
def RepositoryCall.dynamoProgram (recoveryDelay : ℤ) :
    (call : RepositoryCall Options Solution) → DynamoProgram Options Solution call.Result
  | .enqueue job => DynamoDbJobRepository.enqueue job
  | .get id => DynamoDbJobRepository.get id
  | .findByObjectKey objectKey => DynamoDbJobRepository.findByObjectKey objectKey
  | .claim requestedJobId leaseSeconds => DynamoDbJobRepository.claim requestedJobId leaseSeconds
  | .heartbeat id leaseToken leaseSeconds =>
      DynamoDbJobRepository.heartbeat id leaseToken leaseSeconds
  | .inputKey id leaseToken => DynamoDbJobRepository.inputKey id leaseToken
  | .complete id leaseToken solution error =>
      DynamoDbJobRepository.complete id leaseToken solution error
  | .donateValidation id donation => DynamoDbJobRepository.donateValidation id donation
  | .pendingNotifications limit => DynamoDbJobRepository.pendingNotifications recoveryDelay limit
  | .markNotificationDelivered id => DynamoDbJobRepository.markNotificationDelivered id

/-! ## The table and its readers -/

/-- The table with all writes it accepted, each with the process that issued
it. -/
abbrev DynamoStore (Options Solution : Type) :=
  VersionedStore (DynamoTable Options Solution) (DynamoWrite Options Solution) ℕ DynamoTable.apply
    DynamoTable.empty

namespace DynamoStore

/-- A read without `ConsistentRead` sees any version so far, one with it the
latest. -/
def Sees (store : DynamoStore Options Solution) (consistentRead : Bool)
    (version : DynamoTable Options Solution) : Prop :=
  if consistentRead then version = store.current else store.Saw version

/-- The job is listed under this status in this version of the index. -/
def Listed (version : DynamoTable Options Solution) (status : JobStatus)
    (createdBefore : Option Time) (undeliveredOnly : Bool) (id : JobId) : Prop :=
  ∃ attributes, (version.item id).attributes = some attributes ∧ attributes.status = status ∧
    (∀ bound, createdBefore = some bound → attributes.createdAt ≤ bound) ∧
    (undeliveredOnly = true → (version.item id).notificationDeliveredAt = none)

/-- What a read may return.  Every read may also fail. -/
def Reads (store : DynamoStore Options Solution) :
    (r : DynamoRequest Options Solution) → r.Response → Prop
  | .utcNow, _ => True
  | .uuidV7, _ => True
  | .getJob id consistentRead, reply => ∀ found, reply = .ok found →
      ∃ version, store.Sees consistentRead version ∧ found = version.jobs.find? id
  | .getObjectIndex objectKey, reply => ∀ found, reply = .ok found →
      found = (store.current.objects.find? objectKey).map ObjectIndexItem.jobId
  | .getClient owner, reply => ∀ found, reply = .ok found →
      ∃ version, store.Saw version ∧
        found = (version.clients.find? owner).map ClientItem.lastServedAt
  | .queryStatus status createdBefore undeliveredOnly limit, reply => ∀ ids, reply = .ok ids →
      (∀ id ∈ ids, ∃ version, store.Saw version ∧
        Listed version status createdBefore undeliveredOnly id) ∧
      ∀ bound, limit = some bound → ids.length ≤ bound
  | .scanObjectKey objectKey, reply => ∀ item, reply = .ok (some item) →
      ∃ version, store.Saw version ∧ version.jobs.find? item.pk = some item ∧
        (item.attributes.any fun attributes => attributes.objectKey = objectKey) = true
  | .write _, _ => False

/-- The store after an accepted write. -/
def Accepts (store : DynamoStore Options Solution) (pid : ℕ) (write : DynamoWrite Options Solution)
    (after : DynamoStore Options Solution) : Prop :=
  ∃ next happly, after = store.record pid write next happly

/-- Only a transaction can be cancelled by a conflict while its conditions
hold. -/
def Cancellable : DynamoWrite Options Solution → Prop
  | .enqueue _ => True
  | .claim .. => True
  | .update .. => False

/-- One request.  A write that fails may have been applied. -/
def Answers (pid : ℕ) (store : DynamoStore Options Solution) (r : DynamoRequest Options Solution)
    (reply : r.Response) (after : DynamoStore Options Solution) : Prop :=
  match r, reply with
  | .write write, .written => store.Accepts pid write after
  | .write write, .refused =>
      after = store ∧ (store.current.apply write = none ∨ Cancellable write)
  | .write write, .failed _ => after = store ∨ store.Accepts pid write after
  | r, reply => after = store ∧ store.Reads r reply

/-! ### Serving on fixed inputs -/

/-- The version an eventually consistent read of this process sees: the empty
table for a process that lags behind. -/
def readVersion (lags : ℕ → Bool) (pid : ℕ) (store : DynamoStore Options Solution)
    (consistentRead : Bool) : DynamoTable Options Solution :=
  if lags pid && !consistentRead then .empty else store.current

/-- One way to serve requests: the clock of a process shows a hundred seconds
for each process before it, a fresh token is named after its process, indexes
are empty, and writes are applied whenever their conditions hold. -/
def serve (lags : ℕ → Bool) (pid : ℕ) (store : DynamoStore Options Solution) :
    (r : DynamoRequest Options Solution) → Option (r.Response × DynamoStore Options Solution)
  | .utcNow => some ((10 ^ 11 * pid : Time), store)
  | .uuidV7 => some ("token-" ++ toString pid, store)
  | .getJob id consistentRead =>
      some (.ok ((readVersion lags pid store consistentRead).jobs.find? id), store)
  | .getObjectIndex objectKey =>
      some (.ok ((store.current.objects.find? objectKey).map ObjectIndexItem.jobId), store)
  | .getClient owner =>
      some (.ok (((readVersion lags pid store false).clients.find? owner).map
        ClientItem.lastServedAt), store)
  | .queryStatus .. => some (.ok [], store)
  | .scanObjectKey _ => some (.ok none, store)
  | .write write =>
      match happly : store.current.apply write with
      | some next => some (.written, store.record pid write next happly)
      | none => some (.refused, store)

theorem sees_readVersion (lags : ℕ → Bool) (pid : ℕ) (store : DynamoStore Options Solution)
    (consistentRead : Bool) :
    store.Sees consistentRead (readVersion lags pid store consistentRead) := by
  unfold Sees readVersion
  cases consistentRead with
  | true => simp
  | false =>
      cases lags pid with
      | true => exact VersionedStore.saw_origin store
      | false => exact VersionedStore.saw_current store

theorem answers_of_serve {lags : ℕ → Bool} (pid : ℕ) (store : DynamoStore Options Solution)
    (r : DynamoRequest Options Solution) (reply : r.Response)
    (after : DynamoStore Options Solution) (hserved : serve lags pid store r = some (reply, after)) :
    store.Answers pid r reply after := by
  cases r with
  | write write =>
      simp only [serve] at hserved
      split at hserved
      next version happly =>
        cases hserved
        exact ⟨version, happly, rfl⟩
      next hnone =>
        cases hserved
        exact ⟨rfl, .inl hnone⟩
  | utcNow =>
      cases hserved
      exact ⟨rfl, trivial⟩
  | uuidV7 =>
      cases hserved
      exact ⟨rfl, trivial⟩
  | getJob id consistentRead =>
      cases hserved
      refine ⟨rfl, ?_⟩
      rintro found ⟨⟩
      exact ⟨_, sees_readVersion lags pid store consistentRead, rfl⟩
  | getObjectIndex objectKey =>
      cases hserved
      refine ⟨rfl, ?_⟩
      rintro found ⟨⟩
      rfl
  | getClient owner =>
      cases hserved
      refine ⟨rfl, ?_⟩
      rintro found ⟨⟩
      exact ⟨_, sees_readVersion lags pid store false, rfl⟩
  | queryStatus status createdBefore undeliveredOnly limit =>
      cases hserved
      refine ⟨rfl, ?_⟩
      rintro ids ⟨⟩
      refine ⟨?_, fun bound _ => Nat.zero_le bound⟩
      intro id hmem
      cases hmem
  | scanObjectKey objectKey =>
      cases hserved
      refine ⟨rfl, ?_⟩
      intro item hitem
      cases hitem

end DynamoStore

end SeizaServer
