import SeizaServer.KeyedTable
import SeizaServer.StoredTimes
import SeizaServer.VersionedStore

/-!
# The DynamoDB table of the job store

The items with the `JOB#`, `OBJECT#`, `ASTROMETRY#` and `CLIENT#` keys, and the
conditional writes the repository issues.  A write applies to a version of the
table if its condition expressions hold there.
-/

namespace SeizaServer

variable {Options Solution : Type}

/-! ## Items -/

/-- The attributes of a job item except its key.  An attribute is `none` if it
is absent; `solution_json`, `error` and `validation_comment` may also be
present with the value null, which is `some none`. -/
structure JobAttributes (Options Solution : Type) where
  id : JobId
  astrometryId : ℕ
  owner : String
  queueWeight : ℚ
  objectKey : String
  originalFilename : String
  contentType : Option String
  optionsJson : Options
  status : JobStatus
  createdAt : Time
  attempts : ℕ
  startedAt : Option Time
  completedAt : Option Time
  solutionJson : Option (Option Solution)
  error : Option (Option String)
  leaseToken : Option String
  leaseExpiresAt : Option Time
  validationObjectKey : Option String
  validationDonatedAt : Option Time
  validationComment : Option (Option String)
  validationSolveIsInvalid : Option Bool
  validationLicenseVersion : Option String
  deriving DecidableEq

/-- A `JOB#` item.  An unconditional update creates an item which has nothing
but its key and what the update sets. -/
structure JobItem (Options Solution : Type) where
  pk : JobId
  attributes : Option (JobAttributes Options Solution)
  notificationDeliveredAt : Option Time
  deriving DecidableEq

/-- An `OBJECT#` item. -/
structure ObjectIndexItem where
  objectKey : String
  jobId : JobId
  deriving DecidableEq

/-- An `ASTROMETRY#` item. -/
structure AstrometryIndexItem where
  astrometryId : ℕ
  jobId : JobId
  deriving DecidableEq

/-- A `CLIENT#` item. -/
structure ClientItem where
  owner : String
  lastServedAt : Time
  deriving DecidableEq

structure DynamoTable (Options Solution : Type) where
  jobs : KeyedTable (JobItem Options Solution) JobId JobItem.pk
  objects : KeyedTable ObjectIndexItem String ObjectIndexItem.objectKey
  astrometry : KeyedTable AstrometryIndexItem ℕ AstrometryIndexItem.astrometryId
  clients : KeyedTable ClientItem String ClientItem.owner

def DynamoTable.empty : DynamoTable Options Solution := ⟨.empty, .empty, .empty, .empty⟩

/-- `job_item`. -/
def jobItem (job : JobRecord Options Solution) : JobItem Options Solution where
  pk := job.id
  attributes := some
    { id := job.id
      astrometryId := job.astrometryId
      owner := job.owner
      queueWeight := job.queueWeight
      objectKey := job.objectKey
      originalFilename := job.originalFilename
      contentType := job.contentType
      optionsJson := job.options
      status := job.status
      createdAt := job.createdAt
      attempts := 0
      startedAt := none
      completedAt := none
      solutionJson := none
      error := none
      leaseToken := none
      leaseExpiresAt := none
      validationObjectKey := none
      validationDonatedAt := none
      validationComment := none
      validationSolveIsInvalid := none
      validationLicenseVersion := none }
  notificationDeliveredAt := none

def missingAttribute (name : String) : Fault :=
  .bail ("DynamoDB item is missing string/number `" ++ name ++ "`")

/-- The donation of an item, if it has one. -/
def JobAttributes.validationDonation (attributes : JobAttributes Options Solution) :
    Except Fault (Option ValidationDonation) :=
  match attributes.validationObjectKey with
  | none => .ok none
  | some objectKey =>
      match attributes.validationLicenseVersion, attributes.validationDonatedAt with
      | some licenseVersion, some donatedAt =>
          .ok (some
            { objectKey := objectKey
              comment := attributes.validationComment.join
              solveIsInvalid := attributes.validationSolveIsInvalid.getD false
              licenseVersion := licenseVersion
              donatedAt := donatedAt })
      | none, _ => .error (missingAttribute "validation_license_version")
      | some _, none => .error (missingAttribute "validation_donated_at")

def JobAttributes.record (attributes : JobAttributes Options Solution)
    (donation : Option ValidationDonation) : JobRecord Options Solution where
  id := attributes.id
  astrometryId := attributes.astrometryId
  owner := attributes.owner
  queueWeight := attributes.queueWeight
  objectKey := attributes.objectKey
  originalFilename := attributes.originalFilename
  contentType := attributes.contentType
  options := attributes.optionsJson
  status := attributes.status
  createdAt := attributes.createdAt
  startedAt := attributes.startedAt
  completedAt := attributes.completedAt
  solution := attributes.solutionJson.join
  error := attributes.error.join
  validationDonation := donation

def recordFromItem (item : JobItem Options Solution) : Except Fault (JobRecord Options Solution) :=
  match item.attributes with
  | none => .error (missingAttribute "id")
  | some attributes => attributes.validationDonation.map attributes.record

/-- `#status = :solving AND #lease_expires_at <= :now`. -/
def JobAttributes.expiredBy [TimeStore] (attributes : JobAttributes Options Solution)
    (now : Time) : Bool :=
  attributes.status = .solving && attributes.leaseExpiresAt.any fun expires =>
    (TimeStore.compare expires now).isLE

/-- `#status = :solving AND lease_token = :lease_token AND lease_expires_at >
:now`. -/
def JobAttributes.leasedTo [TimeStore] (attributes : JobAttributes Options Solution)
    (token : String) (now : Time) : Bool :=
  attributes.status = .solving && attributes.leaseToken = some token &&
    attributes.leaseExpiresAt.any fun expires => (TimeStore.compare expires now).isGT

/-! ## Writes -/

inductive ClaimEligibility where
  | queued
  | expiredLease
  deriving DecidableEq, Repr

/-- The `UpdateItem` requests on a job item, with their values. -/
inductive JobUpdate (Solution : Type) where
  | requeue (now : Time)
  | renew (leaseToken : String) (now expires : Time)
  | complete (leaseToken : String) (now : Time) (solution : Option Solution)
      (error : Option String)
  | donate (donation : ValidationDonation)
  | markDelivered (now : Time)

/-- The job update of a claim. -/
structure ClaimUpdate where
  eligibility : ClaimEligibility
  now : Time
  leaseToken : String
  leaseExpiresAt : Time

/-- Whether the condition expression of an update holds of an item. -/
def JobUpdate.condition [TimeStore] (update : JobUpdate Solution) (item : JobItem Options Solution) : Bool :=
  match update with
  | .requeue now => item.attributes.any fun attributes => attributes.expiredBy now
  | .renew leaseToken now _ => item.attributes.any fun attributes => attributes.leasedTo leaseToken now
  | .complete leaseToken now _ _ =>
      item.attributes.any fun attributes => attributes.leasedTo leaseToken now
  | .donate _ => item.attributes.any fun attributes =>
      attributes.status = .succeeded || attributes.status = .failed
  | .markDelivered _ => true

/-- The update expression on the attributes of a job. -/
def JobUpdate.assign (update : JobUpdate Solution) (attributes : JobAttributes Options Solution) :
    JobAttributes Options Solution :=
  match update with
  | .requeue _ => { attributes with status := .queued, leaseToken := none, leaseExpiresAt := none }
  | .renew _ _ expires => { attributes with leaseExpiresAt := some expires }
  | .complete _ now solution error =>
      { attributes with
        status := completionStatus solution
        completedAt := some now
        solutionJson := some solution
        error := some error
        leaseToken := none
        leaseExpiresAt := none }
  | .donate donation =>
      { attributes with
        validationObjectKey := some donation.objectKey
        validationDonatedAt := some (attributes.validationDonatedAt.getD donation.donatedAt)
        validationComment := some donation.comment
        validationSolveIsInvalid := some donation.solveIsInvalid
        validationLicenseVersion := some donation.licenseVersion }
  | .markDelivered _ => attributes

/-- The update expression on `notification_delivered_at`. -/
def JobUpdate.deliveredAt (update : JobUpdate Solution) (deliveredAt : Option Time) : Option Time :=
  match update with
  | .requeue _ => none
  | .markDelivered now => some now
  | _ => deliveredAt

def JobUpdate.applyTo (update : JobUpdate Solution) (item : JobItem Options Solution) :
    JobItem Options Solution :=
  { item with
    attributes := item.attributes.map update.assign
    notificationDeliveredAt := update.deliveredAt item.notificationDeliveredAt }

/-- Only the expression values of the chosen condition are declared. -/
def ClaimUpdate.condition [TimeStore] (update : ClaimUpdate) (item : JobItem Options Solution) : Bool :=
  item.attributes.any fun attributes =>
    match update.eligibility with
    | .queued => attributes.status = .queued
    | .expiredLease => attributes.expiredBy update.now

def ClaimUpdate.assign (update : ClaimUpdate) (attributes : JobAttributes Options Solution) :
    JobAttributes Options Solution :=
  { attributes with
    status := .solving
    startedAt := some update.now
    leaseToken := some update.leaseToken
    leaseExpiresAt := some update.leaseExpiresAt
    attempts := attributes.attempts + 1 }

def ClaimUpdate.applyTo (update : ClaimUpdate) (item : JobItem Options Solution) :
    JobItem Options Solution :=
  { item with attributes := item.attributes.map update.assign }

/-- The writing requests: the transaction of `enqueue` for a submitted job, the
transaction of `claim`, and single updates. -/
inductive DynamoWrite (Options Solution : Type) where
  | enqueue (job : JobRecord Options Solution)
  | claim (id : JobId) (owner : String) (update : ClaimUpdate)
  | update (id : JobId) (update : JobUpdate Solution)

/-- The job whose item a request writes. -/
def DynamoWrite.target : DynamoWrite Options Solution → JobId
  | .enqueue job => job.id
  | .claim id _ _ => id
  | .update id _ => id

namespace DynamoTable

/-- The item an update works on. -/
def item (table : DynamoTable Options Solution) (id : JobId) : JobItem Options Solution :=
  (table.jobs.find? id).getD ⟨id, none, none⟩

theorem item_pk (table : DynamoTable Options Solution) (id : JobId) : (table.item id).pk = id := by
  unfold item
  cases hfind : table.jobs.find? id with
  | none => rfl
  | some item => exact KeyedTable.key_of_find? hfind

/-- The table after a write, `none` if one of its conditions fails. -/
def apply [TimeStore] (table : DynamoTable Options Solution) :
    DynamoWrite Options Solution → Option (DynamoTable Options Solution)
  | .enqueue job =>
      let job := enqueuedRecord job
      match table.jobs.insert? (jobItem job), table.objects.insert? ⟨job.objectKey, job.id⟩,
          table.astrometry.insert? ⟨job.astrometryId, job.id⟩ with
      | some jobs, some objects, some astrometry =>
          some { table with jobs := jobs, objects := objects, astrometry := astrometry }
      | _, _, _ => none
  | .claim id owner update =>
      if update.condition (table.item id) then
        some { table with
          jobs := table.jobs.put (update.applyTo (table.item id))
          clients := table.clients.put ⟨owner, update.now⟩ }
      else none
  | .update id update =>
      if update.condition (table.item id) then
        some { table with jobs := table.jobs.put (update.applyTo (table.item id)) }
      else none

variable {table after : DynamoTable Options Solution}

theorem item_of_find? {id : JobId} {item : JobItem Options Solution}
    (hfind : table.jobs.find? id = some item) : table.item id = item := by
  rw [DynamoTable.item, hfind]
  rfl

theorem item_of_put {item : JobItem Options Solution} (hjobs : after.jobs = table.jobs.put item)
    (id : JobId) : after.item id = if item.pk = id then item else table.item id := by
  unfold DynamoTable.item
  rw [hjobs, KeyedTable.find?_put]
  by_cases hid : item.pk = id
  · rw [if_pos hid, if_pos hid]
    rfl
  · rw [if_neg hid, if_neg hid]

theorem item_of_insert? {item : JobItem Options Solution}
    (hjobs : table.jobs.insert? item = some after.jobs) (id : JobId) :
    after.item id = if item.pk = id then item else table.item id := by
  unfold DynamoTable.item
  rw [KeyedTable.find?_insert? hjobs]
  by_cases hid : item.pk = id
  · rw [if_pos hid, if_pos hid]
    rfl
  · rw [if_neg hid, if_neg hid]

/-- What an accepted write does to one item: nothing, or one of the three
things it was issued for. -/
theorem item_of_apply [TimeStore] {write : DynamoWrite Options Solution}
    (happly : table.apply write = some after) (id : JobId) :
    (write.target ≠ id ∧ after.item id = table.item id) ∨
    (∃ job, write = .enqueue job ∧ job.id = id ∧ (table.item id).attributes = none ∧
      after.item id = jobItem (enqueuedRecord job)) ∨
    (∃ owner update, write = .claim id owner update ∧
      update.condition (table.item id) = true ∧
      after.item id = update.applyTo (table.item id)) ∨
    ∃ update, write = .update id update ∧ update.condition (table.item id) = true ∧
      after.item id = update.applyTo (table.item id) := by
  cases write with
  | enqueue job =>
      simp only [apply] at happly
      split at happly
      next jobs objects astrometry hjobs _ _ =>
        have hafter : jobs = after.jobs := congrArg DynamoTable.jobs (Option.some.inj happly)
        rw [hafter] at hjobs
        have hitem := item_of_insert? hjobs id
        by_cases hid : job.id = id
        · subst hid
          have hfresh : table.jobs.find? job.id = none := KeyedTable.fresh_of_insert? hjobs
          refine .inr (.inl ⟨job, rfl, rfl, ?_, hitem.trans (if_pos rfl)⟩)
          simp [DynamoTable.item, hfresh]
        · exact .inl ⟨hid, hitem.trans (if_neg hid)⟩
      next => cases happly
  | claim target owner update =>
      simp only [apply] at happly
      split_ifs at happly with hcondition
      have hafter : table.jobs.put (update.applyTo (table.item target)) = after.jobs :=
        congrArg DynamoTable.jobs (Option.some.inj happly)
      have hitem := item_of_put hafter.symm id
      by_cases hid : target = id
      · subst hid
        exact .inr (.inr (.inl ⟨owner, update, rfl, hcondition,
          hitem.trans (if_pos (table.item_pk target))⟩))
      · exact .inl ⟨hid, hitem.trans (if_neg fun h => hid ((table.item_pk target).symm.trans h))⟩
  | update target update =>
      simp only [apply] at happly
      split_ifs at happly with hcondition
      have hafter : table.jobs.put (update.applyTo (table.item target)) = after.jobs :=
        congrArg DynamoTable.jobs (Option.some.inj happly)
      have hitem := item_of_put hafter.symm id
      by_cases hid : target = id
      · subst hid
        exact .inr (.inr (.inr ⟨update, rfl, hcondition,
          hitem.trans (if_pos (table.item_pk target))⟩))
      · exact .inl ⟨hid, hitem.trans (if_neg fun h => hid ((table.item_pk target).symm.trans h))⟩

end DynamoTable

end SeizaServer
