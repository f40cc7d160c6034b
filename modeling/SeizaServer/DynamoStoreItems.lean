import SeizaServer.StoreSnapshot

/-!
# Snapshot records as DynamoDB items

The codec of `migrate-store`: every stored job is one item of named attributes
that also carries its validation contribution, beside an item for each of its
indexes and an item for each client.  Reading a written item gives the record
back.
-/

namespace SeizaServer.Migration

open KeyedLists

variable {Weight : Type}

inductive AttributeValue where
  | s (value : String)
  | n (value : String)
  | bool (value : Bool)
  | null
  deriving DecidableEq

/-- The attributes of an item, each name once. -/
abbrev Item := List (String × AttributeValue)

namespace Item

def get (item : Item) (name : String) : Option AttributeValue :=
  (item.find? fun entry => entry.1 = name).map (·.2)

def optionalString (item : Item) (name : String) : Option String :=
  match item.get name with
  | some (.s value) => some value
  | some (.n value) => some value
  | _ => none

def requiredString (item : Item) (name : String) : Except String String :=
  match item.optionalString name with
  | some value => .ok value
  | none => .error s!"DynamoDB item is missing string/number `{name}`"

def requiredNumber (item : Item) (name : String) : Except String String :=
  match item.get name with
  | some (.n value) => .ok value
  | _ => .error s!"DynamoDB item is missing number `{name}`"

def optionalBool (item : Item) (name : String) : Option Bool :=
  match item.get name with
  | some (.bool value) => some value
  | _ => none

end Item

/-! ## Numbers and keys -/

/-- `str::parse::<u64>`: decimal digits after at most one plus sign. -/
def parseU64 (text : String) : Option ℕ :=
  let digits := match text.toList with
    | '+' :: digits => digits
    | digits => digits
  let value := Nat.ofDigitChars 10 digits 0
  if digits ≠ [] ∧ digits.all Char.isDigit ∧ value < 2 ^ 64 then some value else none

/-- `str::strip_prefix`. -/
def stripTag (tag text : String) : Option String :=
  if tag.toList.isPrefixOf text.toList then
    some (String.ofList (text.toList.drop tag.toList.length))
  else none

def jobKey (id : JobId) : String := "JOB#" ++ uuidText id

def astrometryIndexKey (id : ℕ) : String := "ASTROMETRY#" ++ id.repr

def legacyIndexKey (id : ℕ) : String := "LEGACY#" ++ id.repr

def clientKey (owner : String) : String := "CLIENT#" ++ owner

def objectIndexKey (objectKey : String) : String := "OBJECT#" ++ objectKey

/-- The stem of a file name, before its last dot. -/
def fileStem (filename : List Char) : List Char :=
  if '.' ∈ filename then ((filename.reverse.dropWhile (· ≠ '.')).drop 1).reverse else filename

/-- The UUID of the tagged parent directory, or else of the file itself. -/
def jobIdFromObjectKey (parseUuid : String → Option JobId) (objectKey : String) : Option JobId :=
  match (objectKey.toList.splitOn '/').reverse with
  | [] => none
  | filename :: parents =>
      let taggedParent := parents.head?.bind fun parent =>
        (stripTag "public-" (String.ofList parent)).bind parseUuid
      taggedParent.or (parseUuid (String.ofList (fileStem filename)))

def requiredU64 (item : Item) (name : String) : Except String ℕ := do
  let text ← item.requiredNumber name
  match parseU64 text with
  | some value => .ok value
  | none => .error s!"DynamoDB field {name} is not a u64"

def optionalU64 (item : Item) (name : String) : Except String (Option ℕ) :=
  match item.get name with
  | none => .ok none
  | some (.n text) =>
      match parseU64 text with
      | some value => .ok (some value)
      | none => .error s!"DynamoDB field {name} is not a u64"
  | some _ => .error s!"DynamoDB field {name} is not numeric"

/-! ## Jobs and contributions -/

def textAttribute (name : String) : Option String → Item
  | none => []
  | some value => [(name, .s value)]

def numberAttribute (name : String) : Option ℕ → Item
  | none => []
  | some value => [(name, .n value.repr)]

def donationAttributes : Option StoredDonation → Item
  | none => []
  | some donation =>
      [("validation_object_key", .s donation.objectKey),
        ("validation_license_version", .s donation.licenseVersion),
        ("validation_donated_at", .s donation.donatedAt),
        ("validation_solve_is_invalid", .bool donation.solveIsInvalid),
        ("validation_comment", donation.comment.elim .null .s)]

section Codec

variable (f : Formats Weight)

def jobToItem (job : StoredJob Weight) (donation : Option StoredDonation) : Item :=
  [("pk", .s (jobKey job.id)), ("entity", .s "job"), ("id", .s (uuidText job.id)),
    ("astrometry_id", .n job.astrometryId.repr), ("owner", .s job.owner),
    ("queue_weight", .n (f.displayWeight job.queueWeight)), ("object_key", .s job.objectKey),
    ("original_filename", .s job.originalFilename), ("options_json", .s job.optionsJson),
    ("status", .s job.status), ("created_at", .s job.createdAt),
    ("attempts", .n job.attempts.repr)] ++
  numberAttribute "legacy_id" job.legacyId ++
  textAttribute "content_type" job.contentType ++
  textAttribute "started_at" job.startedAt ++
  textAttribute "completed_at" job.completedAt ++
  textAttribute "solution_json" job.solutionJson ++
  textAttribute "error" job.error ++
  textAttribute "lease_token" job.leaseToken ++
  textAttribute "lease_expires_at" job.leaseExpiresAt ++
  textAttribute "notification_delivered_at" job.notificationDeliveredAt ++
  donationAttributes donation

structure JobIdentity where
  id : JobId
  astrometryId : ℕ
  legacyId : Option ℕ
  expectedPk : String
  convertedFromNumeric : Bool

def jobIdentity (item : Item) (objectKey : String) : Except String JobIdentity :=
  match item.get "id" with
  | some (.s value) =>
      match f.parseUuid value with
      | none => .error "DynamoDB job ID is not a UUID"
      | some id => do
          let astrometryId ← requiredU64 item "astrometry_id"
          let legacyId ← optionalU64 item "legacy_id"
          .ok ⟨id, astrometryId, legacyId, jobKey id, false⟩
  | some (.n value) =>
      match parseU64 value with
      | none => .error "DynamoDB legacy job ID is not a u64"
      | some legacyId =>
          match jobIdFromObjectKey f.parseUuid objectKey with
          | none => .error
              s!"legacy DynamoDB job {legacyId} object key has no UUID identity"
          | some id => .ok ⟨id, legacyId, some legacyId, "JOB#" ++ legacyId.repr, true⟩
  | _ => .error "DynamoDB item is missing job ID"

def jobFromItem (item : Item) : Except String (StoredJob Weight) := do
  let objectKey ← item.requiredString "object_key"
  let identity ← jobIdentity f item objectKey
  let pk ← item.requiredString "pk"
  if pk ≠ identity.expectedPk then
    .error s!"DynamoDB job {uuidText identity.id} has invalid partition key {pk}"
  else
    let status ← item.requiredString "status"
    let owner ← item.requiredString "owner"
    let weightText ← item.requiredNumber "queue_weight"
    let queueWeight ← f.parseWeight weightText
    let originalFilename ← item.requiredString "original_filename"
    let optionsJson ← item.requiredString "options_json"
    let createdAt ← item.requiredString "created_at"
    let attempts ← requiredU64 item "attempts"
    .ok
      { id := identity.id
        astrometryId := identity.astrometryId
        legacyId := identity.legacyId
        owner := owner
        queueWeight := queueWeight
        objectKey := objectKey
        originalFilename := originalFilename
        contentType := item.optionalString "content_type"
        optionsJson := optionsJson
        status := status
        createdAt := createdAt
        startedAt := item.optionalString "started_at"
        completedAt := item.optionalString "completed_at"
        solutionJson := item.optionalString "solution_json"
        error := item.optionalString "error"
        leaseToken := item.optionalString "lease_token"
        leaseExpiresAt := item.optionalString "lease_expires_at"
        attempts := attempts
        notificationDeliveredAt :=
          if identity.convertedFromNumeric && status = "queued" then none
          else item.optionalString "notification_delivered_at" }

def donationFromItem (item : Item) (jobId : JobId) : Except String (Option StoredDonation) :=
  match item.optionalString "validation_object_key" with
  | none =>
      if ["validation_object_key", "validation_comment", "validation_solve_is_invalid",
          "validation_license_version", "validation_donated_at"].any
          fun name => (item.get name).isSome then
        .error s!"DynamoDB job {uuidText jobId} has incomplete validation contribution metadata"
      else .ok none
  | some objectKey => do
      let licenseVersion ← item.requiredString "validation_license_version"
      let donatedAt ← item.requiredString "validation_donated_at"
      .ok (some
        { jobId := jobId
          objectKey := objectKey
          comment := item.optionalString "validation_comment"
          solveIsInvalid := (item.optionalBool "validation_solve_is_invalid").getD false
          licenseVersion := licenseVersion
          donatedAt := donatedAt })

/-! ## Items of a table -/

inductive JobReference where
  | uuid (id : JobId)
  | legacy (id : ℕ)
  deriving DecidableEq

def requiredJobReference (item : Item) (name : String) : Except String JobReference :=
  match item.get name with
  | some (.s value) =>
      match f.parseUuid value with
      | some id => .ok (.uuid id)
      | none => .error "DynamoDB index job ID is not a UUID"
  | some (.n value) =>
      match parseU64 value with
      | some id => .ok (.legacy id)
      | none => .error "DynamoDB index job ID is not a u64"
  | _ => .error s!"DynamoDB item is missing job reference {name}"

def ensureOnlyAttributes (item : Item) (pk : String) (supported : List String) :
    Except String Unit :=
  let unknown := sortByKey id ((item.map (·.1)).filter (· ∉ supported))
  ensure unknown.isEmpty
    (s!"DynamoDB item {pk} has unsupported attributes: " ++ String.intercalate ", " unknown)

/-- What the snapshot takes from one item. -/
inductive Entry (Weight : Type) where
  | counter
  | job (job : StoredJob Weight) (donation : Option StoredDonation)
  | client (client : StoredClient)
  | objectIndex (objectKey : String) (reference : JobReference)
  | astrometryIndex (id : ℕ) (reference : JobReference)
  | legacyIndex (id : ℕ) (reference : JobReference)

def jobAttributeNames : List String :=
  ["pk", "entity", "id", "astrometry_id", "legacy_id", "owner", "queue_weight", "object_key",
    "original_filename", "content_type", "options_json", "status", "created_at", "started_at",
    "completed_at", "solution_json", "error", "lease_token", "lease_expires_at", "attempts",
    "notification_delivered_at", "validation_object_key", "validation_comment",
    "validation_solve_is_invalid", "validation_license_version", "validation_donated_at"]

def readJob (item : Item) (pk : String) : Except String (Entry Weight) := do
  ensureOnlyAttributes item pk jobAttributeNames
  let job ← jobFromItem f item
  let donation ← donationFromItem item job.id
  .ok (.job job donation)

def readClient (item : Item) (pk : String) : Except String (Entry Weight) := do
  ensureOnlyAttributes item pk ["pk", "entity", "last_served_at"]
  match stripTag "CLIENT#" pk with
  | none => .error "DynamoDB client record has an invalid partition key"
  | some owner => do
      let lastServedAt ← item.requiredString "last_served_at"
      .ok (.client ⟨owner, lastServedAt⟩)

def readObjectIndex (item : Item) (pk : String) : Except String (Entry Weight) := do
  ensureOnlyAttributes item pk ["pk", "entity", "job_id"]
  match stripTag "OBJECT#" pk with
  | none => .error "DynamoDB object index has an invalid partition key"
  | some objectKey => do
      let reference ← requiredJobReference f item "job_id"
      .ok (.objectIndex objectKey reference)

/-- The two indexes by number. -/
def readNumberIndex (make : ℕ → JobReference → Entry Weight) (tag label : String) (item : Item)
    (pk : String) : Except String (Entry Weight) := do
  ensureOnlyAttributes item pk ["pk", "entity", "job_id"]
  match stripTag tag pk with
  | none => .error s!"DynamoDB {label} index has an invalid partition key"
  | some text =>
      match parseU64 text with
      | none => .error s!"DynamoDB {label} index ID is not a u64"
      | some id => do
          let reference ← requiredJobReference f item "job_id"
          .ok (make id reference)

def readAstrometryIndex (item : Item) (pk : String) : Except String (Entry Weight) :=
  readNumberIndex f .astrometryIndex "ASTROMETRY#" "Astrometry.net" item pk

def readLegacyIndex (item : Item) (pk : String) : Except String (Entry Weight) :=
  readNumberIndex f .legacyIndex "LEGACY#" "legacy" item pk

def readCounter (item : Item) (pk : String) : Except String (Entry Weight) := do
  ensureOnlyAttributes item pk ["pk", "value"]
  let _ ← requiredU64 item "value"
  .ok .counter

def readEntity (item : Item) (pk : String) : Option String → Except String (Entry Weight)
  | none =>
      if pk = "COUNTER#jobs" then readCounter item pk
      else .error s!"DynamoDB table contains unsupported item {pk} with entity None"
  | some entity =>
      if entity = "job" then readJob f item pk
      else if entity = "client" then readClient item pk
      else if entity = "object_index" then readObjectIndex f item pk
      else if entity = "astrometry_index" then readAstrometryIndex f item pk
      else if entity = "legacy_index" then readLegacyIndex f item pk
      else .error (s!"DynamoDB table contains unsupported item {pk} with entity Some(" ++
        entity.quote ++ ")")

def readItem (item : Item) : Except String (Entry Weight) := do
  let pk ← item.requiredString "pk"
  readEntity f item pk (item.optionalString "entity")

end Codec

def indexItem (pk entity : String) (jobId : JobId) : Item :=
  [("pk", .s pk), ("entity", .s entity), ("job_id", .s (uuidText jobId))]

def clientItem (client : StoredClient) : Item :=
  [("pk", .s (clientKey client.owner)), ("entity", .s "client"),
    ("last_served_at", .s client.lastServedAt)]

/-! ## Reading back what was written -/

@[simp] theorem get_nil (name : String) : Item.get [] name = none := rfl

@[simp] theorem get_cons (entry name : String) (value : AttributeValue) (rest : Item) :
    Item.get ((entry, value) :: rest) name = if entry = name then some value else Item.get rest name := by
  unfold Item.get
  by_cases hname : entry = name <;> simp [hname]

@[simp] theorem get_append (front back : Item) (name : String) :
    Item.get (front ++ back) name = (Item.get front name).or (Item.get back name) := by
  unfold Item.get
  rw [List.find?_append, Option.map_or]

@[simp] theorem get_textAttribute (entry name : String) (value : Option String) :
    Item.get (textAttribute entry value) name = if entry = name then value.map .s else none := by
  cases value <;> simp [textAttribute]

@[simp] theorem get_numberAttribute (entry name : String) (value : Option ℕ) :
    Item.get (numberAttribute entry value) name =
      if entry = name then value.map fun number => .n number.repr else none := by
  cases value <;> simp [numberAttribute]

theorem parseU64_repr {value : ℕ} (hvalue : value < 2 ^ 64) : parseU64 value.repr = some value := by
  have hdigits : value.repr.toList = Nat.toDigits 10 value := by
    rw [Nat.repr_eq_ofList_toDigits, String.toList_ofList]
  have hall : ∀ c ∈ Nat.toDigits 10 value, c.isDigit = true := fun c hc =>
    Nat.isDigit_of_mem_toDigits (by decide) (by decide) hc
  have hne : Nat.toDigits 10 value ≠ [] := Nat.toDigits_ne_nil
  have hplain : (match value.repr.toList with
      | '+' :: digits => digits
      | digits => digits) = Nat.toDigits 10 value := by
    rw [hdigits]
    split
    next digits heq =>
      have hplus := hall '+' (heq ▸ List.mem_cons_self)
      exact absurd hplus (by decide)
    next => rfl
  unfold parseU64
  simp only [hplain, Nat.ofDigitChars_ten_toDigits]
  rw [if_pos ⟨hne, List.all_eq_true.mpr hall, hvalue⟩]

theorem stripTag_append (tag text : String) : stripTag tag (tag ++ text) = some text := by
  unfold stripTag
  rw [String.toList_append, if_pos (by simp), List.drop_left, String.ofList_toList]

section RoundTrip

variable {f : Formats Weight}

@[simp] theorem get_donationAttributes_of_ne (donation : Option StoredDonation) {name : String}
    (hobject : "validation_object_key" ≠ name) (hlicense : "validation_license_version" ≠ name)
    (hdonated : "validation_donated_at" ≠ name) (hinvalid : "validation_solve_is_invalid" ≠ name)
    (hcomment : "validation_comment" ≠ name) :
    Item.get (donationAttributes donation) name = none := by
  cases donation <;> simp [donationAttributes, *]

theorem optionalString_textAttribute (value : Option String) :
    (match value.map AttributeValue.s with
      | some (.s text) => some text
      | some (.n text) => some text
      | _ => none) = value := by
  cases value <;> rfl

theorem requiredU64_eq_ok {item : Item} {name : String} {value : ℕ}
    (hget : item.get name = some (.n value.repr)) (hvalue : value < 2 ^ 64) :
    requiredU64 item name = .ok value := by
  unfold requiredU64 Item.requiredNumber
  rw [hget]
  simp [bind, Except.bind, parseU64_repr hvalue]

theorem optionalU64_eq_ok {item : Item} {name : String} {value : Option ℕ}
    (hget : item.get name = value.map fun number => .n number.repr)
    (hvalue : ∀ number, value = some number → number < 2 ^ 64) :
    optionalU64 item name = .ok value := by
  unfold optionalU64
  rw [hget]
  cases value with
  | none => rfl
  | some number => simp [parseU64_repr (hvalue number rfl)]

theorem requiredString_eq_ok {item : Item} {name value : String}
    (hget : item.get name = some (.s value)) : item.requiredString name = .ok value := by
  unfold Item.requiredString Item.optionalString
  rw [hget]

theorem optionalString_of_get {item : Item} {name : String} {value : Option String}
    (hget : item.get name = value.map .s) : item.optionalString name = value := by
  unfold Item.optionalString
  rw [hget]
  exact optionalString_textAttribute value

theorem jobIdentity_jobToItem (hf : f.Lossless) {job : StoredJob Weight}
    (hwell : job.WellFormed f) (donation : Option StoredDonation) (objectKey : String) :
    jobIdentity f (jobToItem f job donation) objectKey =
      .ok ⟨job.id, job.astrometryId, job.legacyId, jobKey job.id, false⟩ := by
  have hastrometry : requiredU64 (jobToItem f job donation) "astrometry_id" =
      .ok job.astrometryId := by
    refine requiredU64_eq_ok (by simp [jobToItem]) ?_
    have hle := hwell.astrometryId_le
    unfold bigintMax at hle
    omega
  have hlegacy : optionalU64 (jobToItem f job donation) "legacy_id" = .ok job.legacyId := by
    refine optionalU64_eq_ok (by simp [jobToItem]) fun number hnumber => ?_
    have hle := hwell.legacyId_le number hnumber
    unfold bigintMax at hle
    omega
  have hid : (jobToItem f job donation).get "id" = some (.s (uuidText job.id)) := by
    simp [jobToItem]
  unfold jobIdentity
  rw [hid]
  simp [hf.uuid, hastrometry, hlegacy, bind, Except.bind]

/-- A written job is read back, field by field. -/
theorem jobFromItem_jobToItem (hf : f.Lossless) {job : StoredJob Weight}
    (hwell : job.WellFormed f) (donation : Option StoredDonation) :
    jobFromItem f (jobToItem f job donation) = .ok job := by
  have htext : ∀ name value, (jobToItem f job donation).get name = some (.s value) →
      (jobToItem f job donation).requiredString name = .ok value :=
    fun name value => requiredString_eq_ok
  have hoptional : ∀ name value, (jobToItem f job donation).get name = value.map .s →
      (jobToItem f job donation).optionalString name = value :=
    fun name value => optionalString_of_get
  have hweight : (jobToItem f job donation).requiredNumber "queue_weight" =
      .ok (f.displayWeight job.queueWeight) := by
    simp [Item.requiredNumber, jobToItem]
  have hattempts : requiredU64 (jobToItem f job donation) "attempts" = .ok job.attempts := by
    refine requiredU64_eq_ok (by simp [jobToItem]) ?_
    have hle := hwell.attempts_le
    unfold bigintMax at hle
    omega
  unfold jobFromItem
  rw [htext "object_key" job.objectKey (by simp [jobToItem]),
    htext "pk" (jobKey job.id) (by simp [jobToItem]),
    htext "status" job.status (by simp [jobToItem]),
    htext "owner" job.owner (by simp [jobToItem]),
    htext "original_filename" job.originalFilename (by simp [jobToItem]),
    htext "options_json" job.optionsJson (by simp [jobToItem]),
    htext "created_at" job.createdAt (by simp [jobToItem]),
    hoptional "content_type" job.contentType (by simp [jobToItem]),
    hoptional "started_at" job.startedAt (by simp [jobToItem]),
    hoptional "completed_at" job.completedAt (by simp [jobToItem]),
    hoptional "solution_json" job.solutionJson (by simp [jobToItem]),
    hoptional "error" job.error (by simp [jobToItem]),
    hoptional "lease_token" job.leaseToken (by simp [jobToItem]),
    hoptional "lease_expires_at" job.leaseExpiresAt (by simp [jobToItem]),
    hoptional "notification_delivered_at" job.notificationDeliveredAt (by simp [jobToItem]),
    hweight, hattempts]
  simp [jobIdentity_jobToItem hf hwell, hf.weight job.queueWeight hwell.finite, bind, Except.bind]

/-- The contribution of a job travels in the item of the job. -/
theorem donationFromItem_jobToItem {job : StoredJob Weight} {donation : Option StoredDonation}
    (hjob : ∀ contribution, donation = some contribution → contribution.jobId = job.id) :
    donationFromItem (jobToItem f job donation) job.id = .ok donation := by
  unfold donationFromItem
  cases donation with
  | none => simp [jobToItem, donationAttributes, Item.optionalString]
  | some contribution =>
      have hid := hjob contribution rfl
      have hobject : (jobToItem f job (some contribution)).optionalString "validation_object_key" =
          some contribution.objectKey := by
        simp [jobToItem, donationAttributes, Item.optionalString]
      have hlicense : (jobToItem f job (some contribution)).requiredString
          "validation_license_version" = .ok contribution.licenseVersion :=
        requiredString_eq_ok (by simp [jobToItem, donationAttributes])
      have hdonated : (jobToItem f job (some contribution)).requiredString
          "validation_donated_at" = .ok contribution.donatedAt :=
        requiredString_eq_ok (by simp [jobToItem, donationAttributes])
      have hinvalid : (jobToItem f job (some contribution)).optionalBool
          "validation_solve_is_invalid" = some contribution.solveIsInvalid := by
        simp [jobToItem, donationAttributes, Item.optionalBool]
      have hcomment : (jobToItem f job (some contribution)).optionalString "validation_comment" =
          contribution.comment := by
        cases hvalue : contribution.comment <;>
          simp [jobToItem, donationAttributes, Item.optionalString, hvalue]
      rw [hobject]
      simp [hlicense, hdonated, hinvalid, hcomment, ← hid, bind, Except.bind]

theorem ensureOnlyAttributes_eq_ok {item : Item} {pk : String} {supported : List String}
    (hknown : ∀ entry ∈ item, entry.1 ∈ supported) :
    ensureOnlyAttributes item pk supported = .ok () := by
  have hnone : (item.map (·.1)).filter (· ∉ supported) = [] := by
    simpa [List.filter_eq_nil_iff] using fun name value hmem => hknown (name, value) hmem
  unfold ensureOnlyAttributes
  rw [hnone]
  simp [sortByKey]

theorem mem_textAttribute {entry : String × AttributeValue} {name : String}
    {value : Option String} (hmem : entry ∈ textAttribute name value) : entry.1 = name := by
  cases value with
  | none => simp [textAttribute] at hmem
  | some text => simp_all [textAttribute]

theorem mem_numberAttribute {entry : String × AttributeValue} {name : String}
    {value : Option ℕ} (hmem : entry ∈ numberAttribute name value) : entry.1 = name := by
  cases value with
  | none => simp [numberAttribute] at hmem
  | some number => simp_all [numberAttribute]

theorem mem_donationAttributes {entry : String × AttributeValue} {donation : Option StoredDonation}
    (hmem : entry ∈ donationAttributes donation) : entry.1 ∈ jobAttributeNames := by
  cases donation with
  | none => simp [donationAttributes] at hmem
  | some contribution =>
      simp only [donationAttributes, List.mem_cons, List.not_mem_nil, or_false] at hmem
      rcases hmem with rfl | rfl | rfl | rfl | rfl <;> simp [jobAttributeNames]

theorem attributes_jobToItem (job : StoredJob Weight) (donation : Option StoredDonation) :
    ∀ entry ∈ jobToItem f job donation, entry.1 ∈ jobAttributeNames := by
  intro entry hmem
  unfold jobToItem at hmem
  simp only [List.mem_append] at hmem
  rcases hmem with (((((((((hplain | hlegacy) | htext) | htext) | htext) | htext) | htext) | htext)
    | htext) | htext) | hdonation
  · simp only [List.mem_cons, List.not_mem_nil, or_false] at hplain
    rcases hplain with rfl | rfl | rfl | rfl | rfl | rfl | rfl | rfl | rfl | rfl | rfl | rfl <;>
      simp [jobAttributeNames]
  · simp [mem_numberAttribute hlegacy, jobAttributeNames]
  all_goals first
    | exact mem_donationAttributes hdonation
    | simp [mem_textAttribute htext, jobAttributeNames]

theorem readItem_jobToItem (hf : f.Lossless) {job : StoredJob Weight}
    (hwell : job.WellFormed f) {donation : Option StoredDonation}
    (hjob : ∀ contribution, donation = some contribution → contribution.jobId = job.id) :
    readItem f (jobToItem f job donation) = .ok (.job job donation) := by
  have hpk : (jobToItem f job donation).requiredString "pk" = .ok (jobKey job.id) :=
    requiredString_eq_ok (by simp [jobToItem])
  have hentity : (jobToItem f job donation).optionalString "entity" = some "job" := by
    simp [jobToItem, Item.optionalString]
  unfold readItem
  simp only [hpk, hentity, bind, Except.bind, readEntity, if_true, readJob,
    ensureOnlyAttributes_eq_ok (attributes_jobToItem job donation),
    jobFromItem_jobToItem hf hwell donation, donationFromItem_jobToItem hjob]

theorem readItem_clientItem (client : StoredClient) :
    readItem f (clientItem client) = .ok (.client client) := by
  have hknown : ∀ entry ∈ clientItem client, entry.1 ∈ ["pk", "entity", "last_served_at"] := by
    simp [clientItem]
  have hpk : (clientItem client).requiredString "pk" = .ok (clientKey client.owner) :=
    requiredString_eq_ok (by simp [clientItem])
  have hentity : (clientItem client).optionalString "entity" = some "client" := by
    simp [clientItem, Item.optionalString]
  have hserved : (clientItem client).requiredString "last_served_at" = .ok client.lastServedAt :=
    requiredString_eq_ok (by simp [clientItem])
  unfold readItem
  simp [hpk, hentity, bind, Except.bind, readEntity, readClient, ensureOnlyAttributes_eq_ok hknown,
    clientKey, stripTag_append, hserved]

theorem requiredJobReference_indexItem (hf : f.Lossless) (pk entity : String)
    (jobId : JobId) :
    requiredJobReference f (indexItem pk entity jobId) "job_id" = .ok (.uuid jobId) := by
  simp [requiredJobReference, indexItem, hf.uuid]

theorem attributes_indexItem (pk entity : String) (jobId : JobId) :
    ∀ entry ∈ indexItem pk entity jobId, entry.1 ∈ ["pk", "entity", "job_id"] := by
  simp [indexItem]

theorem readItem_indexItem (pk entity : String) (jobId : JobId) :
    readItem f (indexItem pk entity jobId) =
      readEntity f (indexItem pk entity jobId) pk (some entity) := by
  have hpk : (indexItem pk entity jobId).requiredString "pk" = .ok pk :=
    requiredString_eq_ok (by simp [indexItem])
  have hentity : (indexItem pk entity jobId).optionalString "entity" = some entity := by
    simp [indexItem, Item.optionalString]
  unfold readItem
  simp [hpk, hentity, bind, Except.bind]

theorem readItem_objectIndex (hf : f.Lossless) (objectKey : String) (jobId : JobId) :
    readItem f (indexItem (objectIndexKey objectKey) "object_index" jobId) =
      .ok (.objectIndex objectKey (.uuid jobId)) := by
  rw [readItem_indexItem]
  simp [readEntity, readObjectIndex, ensureOnlyAttributes_eq_ok (attributes_indexItem _ _ _),
    objectIndexKey, stripTag_append, requiredJobReference_indexItem hf, bind, Except.bind]

theorem readItem_astrometryIndex (hf : f.Lossless) {id : ℕ} (hid : id < 2 ^ 64)
    (jobId : JobId) :
    readItem f (indexItem (astrometryIndexKey id) "astrometry_index" jobId) =
      .ok (.astrometryIndex id (.uuid jobId)) := by
  rw [readItem_indexItem]
  simp [readEntity, readAstrometryIndex, readNumberIndex,
    ensureOnlyAttributes_eq_ok (attributes_indexItem _ _ _), astrometryIndexKey, stripTag_append,
    parseU64_repr hid, requiredJobReference_indexItem hf, bind, Except.bind]

theorem readItem_legacyIndex (hf : f.Lossless) {id : ℕ} (hid : id < 2 ^ 64)
    (jobId : JobId) :
    readItem f (indexItem (legacyIndexKey id) "legacy_index" jobId) =
      .ok (.legacyIndex id (.uuid jobId)) := by
  rw [readItem_indexItem]
  simp [readEntity, readLegacyIndex, readNumberIndex,
    ensureOnlyAttributes_eq_ok (attributes_indexItem _ _ _), legacyIndexKey, stripTag_append,
    parseU64_repr hid, requiredJobReference_indexItem hf, bind, Except.bind]

end RoundTrip

end SeizaServer.Migration
