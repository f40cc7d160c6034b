import SeizaServer.DynamoMigration
import SeizaServer.SqlMigration

/-!
# Reading stored jobs

What the two repositories make of a stored job: `record_from_item` of an item,
and `record_from_row` of a row together with the query for its contribution.
Both read the same record from what an import wrote, or fail with the same error.
-/

namespace SeizaServer.Migration

variable {Weight Options Solution : Type}

/-- The readers of the two JSON columns. -/
structure Payloads (Options Solution : Type) where
  parseOptions : String → Except String Options
  parseSolution : String → Except String Solution

structure LoadedJob (Weight Options Solution : Type) where
  id : JobId
  astrometryId : ℕ
  owner : String
  queueWeight : Weight
  objectKey : String
  originalFilename : String
  contentType : Option String
  options : Options
  status : JobStatus
  createdAt : Time
  startedAt : Option Time
  completedAt : Option Time
  solution : Option Solution
  error : Option String
  validationDonation : Option ValidationDonation

/-- `Option::map(..).transpose()`. -/
def transposeMap {α β : Type} (decode : α → Except String β) : Option α → Except String (Option β)
  | none => .ok none
  | some value => (decode value).map some

section Readers

variable (f : Formats Weight) (payloads : Payloads Options Solution)

/-! ## Items -/

def requiredUuid (item : Item) (name : String) : Except String JobId := do
  let text ← item.requiredString name
  match f.parseUuid text with
  | some id => .ok id
  | none => .error s!"DynamoDB item {name} is not a UUID"

def validationDonationFromItem (item : Item) (objectKey : String) :
    Except String ValidationDonation := do
  let licenseVersion ← item.requiredString "validation_license_version"
  let donatedAtText ← item.requiredString "validation_donated_at"
  let donatedAt ← f.parseTime donatedAtText
  .ok
    { objectKey
      comment := item.optionalString "validation_comment"
      solveIsInvalid := (item.optionalBool "validation_solve_is_invalid").getD false
      licenseVersion
      donatedAt }

def astrometryIdFromItem (item : Item) : Except String ℕ := do
  let text ← item.requiredNumber "astrometry_id"
  match parseU64 text with
  | some value => .ok value
  | none => .error "DynamoDB Astrometry ID is not a u64"

def recordFromItem (item : Item) : Except String (LoadedJob Weight Options Solution) := do
  let id ← requiredUuid f item "id"
  let astrometryId ← astrometryIdFromItem item
  let owner ← item.requiredString "owner"
  let weightText ← item.requiredNumber "queue_weight"
  let queueWeight ← f.parseWeight weightText
  let objectKey ← item.requiredString "object_key"
  let originalFilename ← item.requiredString "original_filename"
  let optionsJson ← item.requiredString "options_json"
  let options ← payloads.parseOptions optionsJson
  let statusText ← item.requiredString "status"
  let status ← JobStatus.parse statusText
  let createdAtText ← item.requiredString "created_at"
  let createdAt ← f.parseTime createdAtText
  let startedAt ← transposeMap f.parseTime (item.optionalString "started_at")
  let completedAt ← transposeMap f.parseTime (item.optionalString "completed_at")
  let solution ← transposeMap payloads.parseSolution (item.optionalString "solution_json")
  let validationDonation ← transposeMap (validationDonationFromItem f item)
    (item.optionalString "validation_object_key")
  .ok
    { id
      astrometryId
      owner
      queueWeight
      objectKey
      originalFilename
      contentType := item.optionalString "content_type"
      options
      status
      createdAt
      startedAt
      completedAt
      solution
      error := item.optionalString "error"
      validationDonation }

/-! ## Rows -/

def decodeJobId (text : String) : Except String JobId :=
  match f.parseUuid text with
  | some id => .ok id
  | none => .error "SQL job ID is not a UUID"

def astrometryIdFromRow (row : SqlJobRow Weight) : Except String ℕ :=
  if 0 ≤ row.astrometryId then .ok row.astrometryId.toNat
  else .error "SQL Astrometry ID is negative"

def recordFromRow (row : SqlJobRow Weight) : Except String (LoadedJob Weight Options Solution) := do
  let id ← decodeJobId f row.id
  let astrometryId ← astrometryIdFromRow row
  let options ← payloads.parseOptions row.optionsJson
  let status ← JobStatus.parse row.status
  let createdAt ← f.parseTime row.createdAt
  let startedAt ← transposeMap f.parseTime row.startedAt
  let completedAt ← transposeMap f.parseTime row.completedAt
  let solution ← transposeMap payloads.parseSolution row.solutionJson
  .ok
    { id
      astrometryId
      owner := row.owner
      queueWeight := row.queueWeight
      objectKey := row.objectKey
      originalFilename := row.originalFilename
      contentType := row.contentType
      options
      status
      createdAt
      startedAt
      completedAt
      solution
      error := row.error
      validationDonation := none }

def validationDonationFromRow (row : SqlDonationRow) : Except String ValidationDonation := do
  let donatedAt ← f.parseTime row.donatedAt
  .ok
    { objectKey := row.objectKey
      comment := row.comment
      solveIsInvalid := row.solveIsInvalid ≠ 0
      licenseVersion := row.licenseVersion
      donatedAt }

def validationDonation (tables : SqlTables Weight) (jobId : JobId) :
    Except String (Option ValidationDonation) :=
  transposeMap (validationDonationFromRow f) (tables.donations.find? (uuidText jobId))

def donationRecord (donation : StoredDonation) : Except String ValidationDonation := do
  let donatedAt ← f.parseTime donation.donatedAt
  .ok
    { objectKey := donation.objectKey
      comment := donation.comment
      solveIsInvalid := donation.solveIsInvalid
      licenseVersion := donation.licenseVersion
      donatedAt }

/-- The record that a stored job and its contribution stand for. -/
def recordOf (job : StoredJob Weight) (donation : Option StoredDonation) :
    Except String (LoadedJob Weight Options Solution) := do
  let options ← payloads.parseOptions job.optionsJson
  let status ← JobStatus.parse job.status
  let createdAt ← f.parseTime job.createdAt
  let startedAt ← transposeMap f.parseTime job.startedAt
  let completedAt ← transposeMap f.parseTime job.completedAt
  let solution ← transposeMap payloads.parseSolution job.solutionJson
  let validationDonation ← transposeMap (donationRecord f) donation
  .ok
    { id := job.id
      astrometryId := job.astrometryId
      owner := job.owner
      queueWeight := job.queueWeight
      objectKey := job.objectKey
      originalFilename := job.originalFilename
      contentType := job.contentType
      options
      status
      createdAt
      startedAt
      completedAt
      solution
      error := job.error
      validationDonation }

end Readers

variable {f : Formats Weight} {payloads : Payloads Options Solution} {s : StoreSnapshot Weight}
  {tables : SqlTables Weight}

end SeizaServer.Migration
