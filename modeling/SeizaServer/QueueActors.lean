import SeizaServer.InterleavedPrograms
import SeizaServer.SqlxAtomicCalls
import SeizaServer.SqsSchedule

/-!
# The parties around the external queue

The upload path of the API, the outbox dispatcher and the SQS workers as
programs over repository calls and queue requests.  Every request may fail.
A message is identified by its position in the order of sending; its receipt
handle is that position.
-/

namespace SeizaServer

open Interaction
open Sqs (SqsQueueClass SqsQueueSchedule)

variable {Options Solution : Type}

/-! ## Queues -/

/-- A message ever sent.  The body is `none` if it is not the text of a
UUID. -/
structure SqsMessage where
  queue : SqsQueueClass
  body : Option JobId
  deleted : Bool
  deriving DecidableEq, Repr

/-- Both queues, with their messages in the order of sending. -/
abbrev SqsQueues := List SqsMessage

/-- What a receive call hands over. -/
structure SqsDelivery where
  body : Option (Option JobId)
  receiptHandle : Option ℕ
  deriving DecidableEq, Repr

def SqsQueues.send (queues : SqsQueues) (queue : SqsQueueClass) (body : Option JobId) : SqsQueues :=
  queues ++ [⟨queue, body, false⟩]

/-- Delete the message of a receipt handle, unless the handle is one of the
other queue. -/
def SqsQueues.delete (queues : SqsQueues) (queue : SqsQueueClass) (receiptHandle : ℕ) : SqsQueues :=
  queues.modify receiptHandle fun message =>
    if message.queue = queue then { message with deleted := true } else message

/-- The delivery is one of a message that this queue still has. -/
def SqsQueues.Delivers (queues : SqsQueues) (queue : SqsQueueClass) (delivery : SqsDelivery) : Prop :=
  ∃ (position : ℕ) (message : SqsMessage),
    queues[position]? = some message ∧ message.queue = queue ∧ message.deleted = false ∧
      (∀ body, delivery.body = some body → body = message.body) ∧
      ∀ receiptHandle, delivery.receiptHandle = some receiptHandle → receiptHandle = position

/-! ## Requests -/

/-- Who makes a repository call: a handler of the API, the outbox dispatcher,
or a worker through the API. -/
inductive Caller where
  | api
  | dispatcher
  | worker
  deriving DecidableEq, Repr

inductive QueueRequest (Options Solution : Type) where
  | utcNow
  | repository (caller : Caller) (call : RepositoryCall Options Solution)
  | sendMessage (queue : SqsQueueClass) (body : JobId) (messageGroupId : String)
  | receiveMessage (queue : SqsQueueClass)
  | deleteMessage (queue : SqsQueueClass) (receiptHandle : ℕ)
  | changeMessageVisibility (queue : SqsQueueClass) (receiptHandle : ℕ)

@[reducible] def QueueRequest.Response : QueueRequest Options Solution → Type
  | .utcNow => Time
  | .repository _ call => Except Fault call.Result
  | .sendMessage .. => Except Fault Unit
  | .receiveMessage _ => Except Fault (Option SqsDelivery)
  | .deleteMessage .. => Except Fault Unit
  | .changeMessageVisibility .. => Except Fault Unit

abbrev QueueProgram (Options Solution : Type) :=
  Program (QueueRequest Options Solution) QueueRequest.Response Fault

namespace Queue

def utcNow : QueueProgram Options Solution Time := .request .utcNow .done

def repository (caller : Caller) (call : RepositoryCall Options Solution) :
    QueueProgram Options Solution (Except Fault call.Result) :=
  .request (.repository caller call) .done

def sendMessage (queue : SqsQueueClass) (body : JobId) (messageGroupId : String) :
    QueueProgram Options Solution (Except Fault Unit) :=
  .request (.sendMessage queue body messageGroupId) .done

def receiveMessage (queue : SqsQueueClass) :
    QueueProgram Options Solution (Except Fault (Option SqsDelivery)) :=
  .request (.receiveMessage queue) .done

def deleteMessage (queue : SqsQueueClass) (receiptHandle : ℕ) :
    QueueProgram Options Solution (Except Fault Unit) :=
  .request (.deleteMessage queue receiptHandle) .done

def changeMessageVisibility (queue : SqsQueueClass) (receiptHandle : ℕ) :
    QueueProgram Options Solution (Except Fault Unit) :=
  .request (.changeMessageVisibility queue receiptHandle) .done

end Queue

/-- How the queues answer.  A failed request may have taken effect, and a
message that is not deleted may be delivered at any time. -/
def SqsQueues.Serves (queues : SqsQueues) :
    (r : QueueRequest Options Solution) → r.Response → SqsQueues → Prop
  | .sendMessage queue body _, reply, after =>
      after = queues.send queue (some body) ∨ (reply ≠ .ok () ∧ after = queues)
  | .deleteMessage queue receiptHandle, reply, after =>
      after = queues.delete queue receiptHandle ∨ (reply ≠ .ok () ∧ after = queues)
  | .receiveMessage queue, reply, after =>
      after = queues ∧ ∀ delivery, reply = .ok (some delivery) → queues.Delivers queue delivery
  | _, _, after => after = queues

/-! ## Publishing -/

/-- Whether the deployment has a priority queue. -/
structure SqsTransport where
  priorityQueue : Bool

def isPriority (queueWeight : ℚ) : Bool := 1 < queueWeight

def SqsTransport.queueUrl (transport : SqsTransport) (job : JobRecord Options Solution) :
    SqsQueueClass :=
  if isPriority job.queueWeight && transport.priorityQueue then .priority else .normal

def isAsciiPunctuation (character : Char) : Bool :=
  (33 ≤ character.toNat && character.toNat ≤ 47) ||
    (58 ≤ character.toNat && character.toNat ≤ 64) ||
    (91 ≤ character.toNat && character.toNat ≤ 96) ||
    (123 ≤ character.toNat && character.toNat ≤ 126)

def fairQueueGroupId (owner : String) : Except Fault String :=
  let groupId := "seiza:v1:" ++ owner
  if groupId.utf8ByteSize > 128 ||
      !groupId.toList.all fun character => character.isAlphanum || isAsciiPunctuation character then
    .error (.bail "job owner cannot be represented as an SQS MessageGroupId")
  else .ok groupId

def SqsTransport.publish (transport : SqsTransport) (job : JobRecord Options Solution) :
    QueueProgram Options Solution Unit := do
  let messageGroupId ← Program.ofExcept (fairQueueGroupId job.owner)
  let sent ← Queue.sendMessage (transport.queueUrl job) job.id messageGroupId
  Program.ofExcept sent

/-- Publish a job and acknowledge its notification.  A failure of either
leaves the outbox pending. -/
def publishThenMark (caller : Caller) (transport : SqsTransport) (jobId : JobId)
    (job : JobRecord Options Solution) : QueueProgram Options Solution Unit := do
  let published ← (transport.publish job).attempt
  match published with
  | .ok () => do
      let _ ← Queue.repository caller (.markNotificationDelivered jobId)
      pure ()
  | .error _ => pure ()

/-! ## The API -/

/-- The part of a filename before its last dot. -/
def filenameStem (filename : List Char) : List Char :=
  match filename.reverse.dropWhile fun character => character ≠ '.' with
  | [] => filename
  | _ :: stem => stem.reverse

/-- `job_id_from_object_key`, where `parseStr` is `Uuid::parse_str`. -/
def jobIdFromObjectKey (parseStr : String → Option JobId) (objectKey : String) : Option JobId :=
  match (objectKey.toList.splitOn '/').reverse with
  | [] => none
  | filename :: parents =>
      let taggedParent := (parents.head?.bind fun value => value.dropPrefix? "public-".toList).bind
        fun value => parseStr (String.ofList value)
      taggedParent.or (parseStr (String.ofList (filenameStem filename)))

/-- The account or address on whose behalf a job is submitted. -/
structure Client where
  id : String
  queueWeight : ℚ

/-- The arguments of `enqueue_stored`. -/
structure StoredUpload (Options : Type) where
  client : Client
  objectKey : String
  originalFilename : String
  contentType : Option String
  options : Options

/-- The record `enqueue_stored` submits. -/
def StoredUpload.job (upload : StoredUpload Options) (jobId : JobId) (createdAt : Time) :
    JobRecord Options Solution where
  id := jobId
  astrometryId := 0
  owner := upload.client.id
  queueWeight := upload.client.queueWeight
  objectKey := upload.objectKey
  originalFilename := upload.originalFilename
  contentType := upload.contentType
  options := upload.options
  status := .queued
  createdAt := createdAt
  startedAt := none
  completedAt := none
  solution := none
  error := none
  validationDonation := none

def enqueueStored (parseStr : String → Option JobId) (transport : SqsTransport)
    (upload : StoredUpload Options) :
    QueueProgram Options Solution (JobRecord Options Solution) := do
  let found ← Queue.repository .api (.findByObjectKey upload.objectKey)
  let existing ← Program.ofExcept found
  match existing with
  | some job => pure job
  | none => do
      let createdAt ← Queue.utcNow
      match jobIdFromObjectKey parseStr upload.objectKey with
      | none => .fault (.bail "job object key has no job UUID")
      | some jobId => do
          let stored ← Queue.repository .api (.enqueue (upload.job jobId createdAt))
          let job ← Program.ofExcept stored
          publishThenMark .api transport job.id job
          pure job

/-! ## The outbox dispatcher -/

/-- The body of the loop over the pending notifications. -/
def dispatchNotification (transport : SqsTransport) (jobId : JobId) :
    QueueProgram Options Solution Unit := do
  let loaded ← Queue.repository .dispatcher (.get jobId)
  match loaded with
  | .error _ => pure ()
  | .ok none => do
      let _ ← Queue.repository .dispatcher (.markNotificationDelivered jobId)
      pure ()
  | .ok (some job) => publishThenMark .dispatcher transport jobId job

def dispatchEach (transport : SqsTransport) : List JobId → QueueProgram Options Solution Unit
  | [] => pure ()
  | jobId :: rest => do
      dispatchNotification transport jobId
      dispatchEach transport rest

/-- The displayed number of rounds of `dispatch_outbox`. -/
def dispatchOutbox (transport : SqsTransport) : ℕ → QueueProgram Options Solution Unit
  | 0 => pure ()
  | rounds + 1 => do
      let pending ← Queue.repository .dispatcher (.pendingNotifications 100)
      match pending with
      | .ok jobIds => do
          dispatchEach transport jobIds
          dispatchOutbox transport rounds
      | .error _ => dispatchOutbox transport rounds

/-! ## The SQS workers -/

/-- The second poll, after the preferred queue had no message or failed. -/
def receiveFallback (fallback : SqsQueueClass) (preferredReceiveSucceeded : Bool) :
    QueueProgram Options Solution (Option (SqsQueueClass × SqsDelivery)) := do
  let received ← Queue.receiveMessage fallback
  match received with
  | .ok message => pure (message.map fun message => (fallback, message))
  | .error _ =>
      if preferredReceiveSucceeded then pure none
      else .fault (.bail "receiving from both SQS queues failed")

def receiveWeighted (preferred : SqsQueueClass) :
    QueueProgram Options Solution (Option (SqsQueueClass × SqsDelivery)) := do
  let received ← Queue.receiveMessage preferred
  match received with
  | .ok (some message) => pure (some (preferred, message))
  | .ok none => receiveFallback preferred.other true
  | .error _ => receiveFallback preferred.other false

/-- One receive of the worker loop; without a priority queue the schedule is
not consulted.  `priority_weight + 1` may overflow. -/
def receiveNext (priorityQueue : Bool) (schedule : SqsQueueSchedule) :
    QueueProgram Options Solution (Option (SqsQueueClass × SqsDelivery) × SqsQueueSchedule) :=
  if priorityQueue then
    match schedule.next with
    | none => .fault (.panic "attempt to add with overflow")
    | some (preferred, schedule) => do
        let received ← receiveWeighted preferred
        pure (received, schedule)
  else do
    let received ← Queue.receiveMessage .normal
    let message ← Program.ofExcept received
    pure (message.map fun message => (.normal, message), schedule)

/-- What the solver does with one lease: how many heartbeats fall due before
it ends, and how it ends. -/
structure SolverRun (Solution : Type) where
  heartbeats : ℕ
  outcome : Except String Solution

/-- The heartbeats of `process_lease`. -/
def heartbeatEach (leaseSeconds : UInt64) (lease : JobLease Options) (queue : SqsQueueClass)
    (receiptHandle : ℕ) : ℕ → QueueProgram Options Solution Unit
  | 0 => pure ()
  | ticks + 1 => do
      let renewed ← Queue.repository .worker (.heartbeat lease.jobId lease.leaseToken leaseSeconds)
      let active ← Program.ofExcept renewed
      if active then do
        let extended ← Queue.changeMessageVisibility queue receiptHandle
        Program.ofExcept extended
        heartbeatEach leaseSeconds lease queue receiptHandle ticks
      else .fault (.bail ("worker lease for job " ++ uuidText lease.jobId ++ " is no longer active"))

/-- The two fields of a `WorkerCompletion` beside its token. -/
def SolverRun.completion (run : SolverRun Solution) : Option Solution × Option String :=
  match run.outcome with
  | .ok solution => (some solution, none)
  | .error error => (none, some error)

def processLease (leaseSeconds : UInt64) (lease : JobLease Options) (queue : SqsQueueClass)
    (receiptHandle : ℕ) (run : SolverRun Solution) : QueueProgram Options Solution Bool := do
  let input ← Queue.repository .worker (.inputKey lease.jobId lease.leaseToken)
  let objectKey ← Program.ofExcept input
  match objectKey with
  | none => .fault (.bail "job lease is no longer active")
  | some _ => do
      heartbeatEach leaseSeconds lease queue receiptHandle run.heartbeats
      let accepted ← Queue.repository .worker (.complete lease.jobId lease.leaseToken
        run.completion.1 run.completion.2)
      Program.ofExcept accepted

/-- A job the API does not know counts as finished. -/
def jobIsTerminal (jobId : JobId) : QueueProgram Options Solution Bool := do
  let loaded ← Queue.repository .worker (.get jobId)
  let job ← Program.ofExcept loaded
  match job with
  | none => pure true
  | some job => pure job.status.terminal

/-- Acknowledge a message. -/
def deleteMessage (queue : SqsQueueClass) (receiptHandle : ℕ) :
    QueueProgram Options Solution Unit := do
  let deleted ← Queue.deleteMessage queue receiptHandle
  Program.ofExcept deleted

/-- The body of the worker loop after a message has arrived. -/
def handleMessage (leaseSeconds : UInt64) (queue : SqsQueueClass) (message : SqsDelivery)
    (run : SolverRun Solution) : QueueProgram Options Solution Unit :=
  match message.body, message.receiptHandle with
  | some (some jobId), some receiptHandle => do
      let claimed ← Queue.repository .worker (.claim (some jobId) leaseSeconds)
      let lease ← Program.ofExcept claimed
      match lease with
      | some lease => do
          let handled ← processLease leaseSeconds lease queue receiptHandle run
          if handled then deleteMessage queue receiptHandle else pure ()
      | none => do
          let handled ← jobIsTerminal jobId
          if handled then deleteMessage queue receiptHandle else pure ()
  | some none, some receiptHandle => deleteMessage queue receiptHandle
  | _, _ => pure ()

/-- The worker loop, one entry for each pass.  The first failure ends the
worker. -/
def runSqsWorker (leaseSeconds : UInt64) (priorityQueue : Bool) :
    SqsQueueSchedule → List (SolverRun Solution) → QueueProgram Options Solution Unit
  | _, [] => pure ()
  | schedule, run :: rest => do
      let received ← receiveNext priorityQueue schedule
      match received.1 with
      | none => runSqsWorker leaseSeconds priorityQueue received.2 rest
      | some (queue, message) => do
          handleMessage leaseSeconds queue message run
          runSqsWorker leaseSeconds priorityQueue received.2 rest

/-! ## The parties -/

/-- A party and what it is asked to do.  `client` is any other repository call
an API handler makes. -/
inductive QueueCall (Options Solution : Type) where
  | enqueueStored (upload : StoredUpload Options)
  | dispatchOutbox (rounds : ℕ)
  | runSqsWorker (schedule : SqsQueueSchedule) (runs : List (SolverRun Solution))
  | client (call : RepositoryCall Options Solution)

@[reducible] def QueueCall.Result : QueueCall Options Solution → Type
  | .enqueueStored _ => JobRecord Options Solution
  | .dispatchOutbox _ => Unit
  | .runSqsWorker .. => Unit
  | .client call => Except Fault call.Result

/-- The configuration shared by all parties. -/
structure QueueConfig where
  parseStr : String → Option JobId
  transport : SqsTransport
  leaseSeconds : UInt64

def QueueCall.program (config : QueueConfig) :
    (call : QueueCall Options Solution) → QueueProgram Options Solution call.Result
  | .enqueueStored upload => SeizaServer.enqueueStored config.parseStr config.transport upload
  | .dispatchOutbox rounds => SeizaServer.dispatchOutbox config.transport rounds
  | .runSqsWorker schedule runs =>
      SeizaServer.runSqsWorker config.leaseSeconds config.transport.priorityQueue schedule runs
  | .client call => Queue.repository .api call

/-- Only the upload path and the dispatcher acknowledge notifications. -/
def QueueCall.Admitted : QueueCall Options Solution → Prop
  | .client (.markNotificationDelivered _) => False
  | _ => True

/-! ### Serving on fixed inputs -/

/-- Every request to the queues succeeds, and the clock shows 0. -/
def SqsQueues.serve (queues : SqsQueues) :
    (r : QueueRequest Options Solution) → Option (r.Response × SqsQueues)
  | .utcNow => some ((0 : Time), queues)
  | .repository .. => none
  | .sendMessage queue body _ => some (.ok (), queues.send queue (some body))
  | .receiveMessage queue =>
      match queues.findIdx? fun message => message.queue = queue && !message.deleted with
      | none => some (.ok none, queues)
      | some position =>
          some (.ok (some ⟨(queues[position]?).map SqsMessage.body, some position⟩), queues)
  | .deleteMessage queue receiptHandle => some (.ok (), queues.delete queue receiptHandle)
  | .changeMessageVisibility .. => some (.ok (), queues)

theorem SqsQueues.serves_of_serve {queues after : SqsQueues} {r : QueueRequest Options Solution}
    {reply : r.Response} (hserved : queues.serve r = some (reply, after)) :
    queues.Serves r reply after := by
  cases r with
  | utcNow =>
      cases hserved
      rfl
  | repository caller call => cases hserved
  | sendMessage queue body messageGroupId =>
      cases hserved
      exact .inl rfl
  | receiveMessage queue =>
      simp only [serve] at hserved
      split at hserved
      · cases hserved
        exact ⟨rfl, nofun⟩
      next position hposition =>
        cases hserved
        obtain ⟨hlength, hmatches, _⟩ := List.findIdx?_eq_some_iff_getElem.mp hposition
        simp only [Bool.and_eq_true, decide_eq_true_eq, Bool.not_eq_true'] at hmatches
        refine ⟨rfl, ?_⟩
        rintro _ ⟨rfl⟩
        refine ⟨position, _, List.getElem?_eq_getElem hlength, hmatches.1, hmatches.2, ?_, ?_⟩
        · intro body hbody
          rw [List.getElem?_eq_getElem hlength] at hbody
          exact (Option.some.inj hbody).symm
        · rintro _ ⟨rfl⟩
          rfl
  | deleteMessage queue receiptHandle =>
      cases hserved
      exact .inl rfl
  | changeMessageVisibility queue receiptHandle =>
      cases hserved
      rfl

def sampleConfig : QueueConfig where
  parseStr := fun text => if text = "00000000-0000-0000-0000-000000000001" then some 1 else none
  transport := ⟨false⟩
  leaseSeconds := 300

def sampleUpload : StoredUpload Unit where
  client := ⟨"public", 1⟩
  objectKey := "uploads/public-00000000-0000-0000-0000-000000000001/sky.fits"
  originalFilename := "sky.fits"
  contentType := none
  options := ()

def isParty : QueueCall Options Solution → Bool
  | .client _ => false
  | _ => true

theorem QueueCall.admitted_of_isParty {call : QueueCall Options Solution}
    (hparty : isParty call = true) : call.Admitted := by
  cases call with
  | client call => cases hparty
  | _ => trivial

end SeizaServer
