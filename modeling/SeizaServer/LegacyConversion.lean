import SeizaServer.DynamoImport
import SeizaServer.SqlMigration

/-!
# Legacy SQL stores

A store from before the UUID schema is read in two ways: `migrate-store`
converts its rows in memory, and every process that opens the store copies them
into the UUID tables, statement by statement and without a transaction.  Both
decide on the identity of a job, on its alias and on its pending notification.
-/

namespace SeizaServer.Migration

open KeyedLists

variable {Weight : Type}

/-! ## The legacy tables -/

/-- A row of `jobs`. -/
structure LegacyJobRow (Weight : Type) where
  id : ℤ
  owner : String
  queueWeight : Weight
  objectKey : String
  originalFilename : String
  contentType : Option String
  optionsJson : String
  status : String
  createdAt : String
  startedAt : Option String
  completedAt : Option String
  solutionJson : Option String
  error : Option String
  leaseToken : Option String
  leaseExpiresAt : Option String
  attempts : ℤ

/-- A row of `validation_donations`. -/
structure LegacyDonationRow where
  jobId : ℤ
  objectKey : String
  comment : Option String
  solveIsInvalid : ℤ
  licenseVersion : String
  donatedAt : String

/-- A row of `queue_outbox`. -/
structure LegacyOutboxRow where
  jobId : ℤ
  deliveredAt : Option String

/-- The legacy tables, beside the `client_service` of both schemas. -/
structure LegacyTables (Weight : Type) where
  jobs : KeyedTable (LegacyJobRow Weight) ℤ LegacyJobRow.id
  donations : KeyedTable LegacyDonationRow ℤ LegacyDonationRow.jobId
  outbox : KeyedTable LegacyOutboxRow ℤ LegacyOutboxRow.jobId
  clients : KeyedTable StoredClient String StoredClient.owner

/-! ## The snapshot in memory -/

section Snapshot

variable (f : Formats Weight)

def legacyJobFromRow (legacy : LegacyTables Weight) (row : LegacyJobRow Weight) :
    Except String (StoredJob Weight) := do
  let legacyId ← fromI64 row.id "legacy job ID"
  match legacy.outbox.find? row.id with
  | none => .error s!"legacy SQLx job {legacyId} has no queue_outbox record"
  | some outbox =>
      match jobIdFromObjectKey f.parseUuid row.objectKey with
      | none => .error s!"legacy SQLx job {legacyId} object key has no UUID identity"
      | some id => do
          let attempts ← fromI64 row.attempts "attempt count"
          .ok
            { id := id
              astrometryId := legacyId
              legacyId := some legacyId
              owner := row.owner
              queueWeight := row.queueWeight
              objectKey := row.objectKey
              originalFilename := row.originalFilename
              contentType := row.contentType
              optionsJson := row.optionsJson
              status := row.status
              createdAt := row.createdAt
              startedAt := row.startedAt
              completedAt := row.completedAt
              solutionJson := row.solutionJson
              error := row.error
              leaseToken := row.leaseToken
              leaseExpiresAt := row.leaseExpiresAt
              attempts := attempts
              notificationDeliveredAt :=
                if row.status = "queued" then none else outbox.deliveredAt }

def legacyDonationFromRow (jobs : List (StoredJob Weight)) (row : LegacyDonationRow) :
    Except String StoredDonation := do
  let legacyId ← fromI64 row.jobId "validation contribution job ID"
  match legacyToUuid jobs legacyId with
  | none => .error s!"validation contribution references missing legacy job {legacyId}"
  | some jobId =>
      .ok
        { jobId := jobId
          objectKey := row.objectKey
          comment := row.comment
          solveIsInvalid := row.solveIsInvalid ≠ 0
          licenseVersion := row.licenseVersion
          donatedAt := row.donatedAt }

def ensureNoOrphanLegacyOutbox (legacy : LegacyTables Weight) : Except String Unit :=
  let count := legacy.outbox.rows.countP fun row => (legacy.jobs.find? row.jobId).isNone
  ensure (count = 0) s!"SQLx store contains {count} orphaned queue_outbox records"

def snapshotLegacySql (legacy : LegacyTables Weight) : Except String (StoreSnapshot Weight) := do
  let jobs ← (sortByKey LegacyJobRow.id legacy.jobs.rows).mapM (legacyJobFromRow f legacy)
  ensureNoOrphanLegacyOutbox legacy
  let donations ← (sortByKey LegacyDonationRow.jobId legacy.donations.rows).mapM
    (legacyDonationFromRow jobs)
  .ok (.new jobs donations (sortByKey StoredClient.owner legacy.clients.rows))

end Snapshot

/-! ## The conversion at start-up -/

section Conversion

variable (f : Formats Weight) (newUuid : LegacyJobRow Weight → JobId)

/-- The row a legacy job becomes; a key without a UUID gives it a fresh one. -/
def convertedJob (row : LegacyJobRow Weight) : SqlJobRow Weight where
  id := uuidText ((jobIdFromObjectKey f.parseUuid row.objectKey).getD (newUuid row))
  astrometryId := row.id
  legacyId := some row.id
  owner := row.owner
  queueWeight := row.queueWeight
  objectKey := row.objectKey
  originalFilename := row.originalFilename
  contentType := row.contentType
  optionsJson := row.optionsJson
  status := row.status
  createdAt := row.createdAt
  startedAt := row.startedAt
  completedAt := row.completedAt
  solutionJson := row.solutionJson
  error := row.error
  leaseToken := row.leaseToken
  leaseExpiresAt := row.leaseExpiresAt
  attempts := row.attempts

/-- `INSERT .. ON CONFLICT(legacy_id) DO NOTHING`. -/
def insertJob (tables : SqlTables Weight) (row : SqlJobRow Weight) :
    Except String (SqlTables Weight) :=
  if tables.jobs.rows.any fun other => row.legacyId.isSome && other.legacyId = row.legacyId then
    .ok tables
  else if tables.jobs.rows.any fun other => other.id = row.id || other.collides row then
    .error "UNIQUE constraint failed: jobs_v2"
  else .ok { tables with jobs := tables.jobs.put row }

/-- `INSERT .. ON CONFLICT(job_id) DO NOTHING`. -/
def insertDonation (tables : SqlTables Weight) (row : SqlDonationRow) :
    Except String (SqlTables Weight) :=
  if (tables.donations.find? row.jobId).isSome then .ok tables
  else if tables.donations.rows.any fun other => other.objectKey = row.objectKey then
    .error "UNIQUE constraint failed: validation_donations_v2"
  else .ok { tables with donations := tables.donations.put row }

def insertOutbox (tables : SqlTables Weight) (row : SqlOutboxRow) : SqlTables Weight :=
  if (tables.outbox.find? row.jobId).isSome then tables
  else { tables with outbox := tables.outbox.put row }

def uuidForLegacyId (tables : SqlTables Weight) (legacyId : ℤ) :
    Except String (Option JobId) :=
  match tables.jobs.rows.find? fun row => row.legacyId = some legacyId with
  | none => .ok none
  | some row =>
      match f.parseUuid row.id with
      | some id => .ok (some id)
      | none => .error "SQL job ID is not a UUID"

/-- One turn of one of the three loops. -/
inductive ConversionStep (Weight : Type) where
  | job (row : LegacyJobRow Weight)
  | donation (row : LegacyDonationRow)
  | outbox (row : LegacyOutboxRow) (status : String)

def conversionSteps (legacy : LegacyTables Weight) : List (ConversionStep Weight) :=
  legacy.jobs.rows.map .job ++ legacy.donations.rows.map .donation ++
    legacy.outbox.rows.filterMap fun row =>
      (legacy.jobs.find? row.jobId).map fun job => .outbox row job.status

def donationWith (jobId : JobId) (row : LegacyDonationRow) : SqlDonationRow where
  jobId := uuidText jobId
  objectKey := row.objectKey
  comment := row.comment
  solveIsInvalid := row.solveIsInvalid
  licenseVersion := row.licenseVersion
  donatedAt := row.donatedAt

def outboxWith (jobId : JobId) (status : String) (row : LegacyOutboxRow) : SqlOutboxRow where
  jobId := uuidText jobId
  deliveredAt := if status = "queued" then none else row.deliveredAt

def convert (tables : SqlTables Weight) :
    ConversionStep Weight → Except String (SqlTables Weight)
  | .job row => insertJob tables (convertedJob f newUuid row)
  | .donation row => do
      match ← uuidForLegacyId f tables row.jobId with
      | none => .ok tables
      | some jobId => insertDonation tables (donationWith jobId row)
  | .outbox row status => do
      match ← uuidForLegacyId f tables row.jobId with
      | none => .ok tables
      | some jobId => .ok (insertOutbox tables (outboxWith jobId status row))

/-- A conversion that stops after some of its statements. -/
def migrateLegacyUntil (legacy : LegacyTables Weight) (stop : ℕ) (tables : SqlTables Weight) :
    Except String (SqlTables Weight) :=
  ((conversionSteps legacy).take stop).foldlM (convert f newUuid) tables

def migrateLegacyJobs (legacy : LegacyTables Weight) (tables : SqlTables Weight) :
    Except String (SqlTables Weight) :=
  (conversionSteps legacy).foldlM (convert f newUuid) tables

end Conversion

/-! ## Convertible stores -/

/-- The UUID that the object key of a legacy job carries. -/
def uuidOf (f : Formats Weight) (legacy : LegacyTables Weight) (legacyId : ℤ) : JobId :=
  ((legacy.jobs.find? legacyId).bind fun row =>
    jobIdFromObjectKey f.parseUuid row.objectKey).getD 0

/-- Every object key carries a UUID, the UUIDs and the keys are distinct, and
the other tables reference jobs of the store. -/
structure Convertible (f : Formats Weight) (legacy : LegacyTables Weight) : Prop where
  uuid : ∀ row ∈ legacy.jobs.rows, (jobIdFromObjectKey f.parseUuid row.objectKey).isSome
  uuids : ∀ first ∈ legacy.jobs.rows, ∀ second ∈ legacy.jobs.rows,
    jobIdFromObjectKey f.parseUuid first.objectKey =
      jobIdFromObjectKey f.parseUuid second.objectKey → first = second
  objectKeys : ∀ first ∈ legacy.jobs.rows, ∀ second ∈ legacy.jobs.rows,
    first.objectKey = second.objectKey → first = second
  donations : ∀ row ∈ legacy.donations.rows, (legacy.jobs.find? row.jobId).isSome
  donationKeys : ∀ first ∈ legacy.donations.rows, ∀ second ∈ legacy.donations.rows,
    first.objectKey = second.objectKey → first = second
  outbox : ∀ row ∈ legacy.outbox.rows, (legacy.jobs.find? row.jobId).isSome

variable {f : Formats Weight} {newUuid : LegacyJobRow Weight → JobId}
  {legacy : LegacyTables Weight} {tables : SqlTables Weight}

theorem jobIdFromObjectKey_eq (hlegacy : Convertible f legacy) {row : LegacyJobRow Weight}
    (hrow : row ∈ legacy.jobs.rows) :
    jobIdFromObjectKey f.parseUuid row.objectKey = some (uuidOf f legacy row.id) := by
  obtain ⟨id, hid⟩ := Option.isSome_iff_exists.mp (hlegacy.uuid row hrow)
  unfold uuidOf
  rw [KeyedTable.find?_of_mem hrow]
  simp [hid]

theorem exists_job {id : ℤ} (hjob : (legacy.jobs.find? id).isSome) :
    ∃ row ∈ legacy.jobs.rows, row.id = id := by
  obtain ⟨row, hfind⟩ := Option.isSome_iff_exists.mp hjob
  exact ⟨row, KeyedTable.mem_of_find? hfind, KeyedTable.key_of_find? hfind⟩

theorem eq_of_id {first second : LegacyJobRow Weight} (hfirst : first ∈ legacy.jobs.rows)
    (hsecond : second ∈ legacy.jobs.rows) (hid : first.id = second.id) : first = second :=
  List.inj_on_of_nodup_map legacy.jobs.unique hfirst hsecond hid

/-- Different legacy jobs have different UUIDs. -/
theorem id_eq_of_uuidOf (hlegacy : Convertible f legacy) {first second : ℤ}
    (hfirst : (legacy.jobs.find? first).isSome) (hsecond : (legacy.jobs.find? second).isSome)
    (huuid : uuidOf f legacy first = uuidOf f legacy second) : first = second := by
  obtain ⟨one, hone, rfl⟩ := exists_job hfirst
  obtain ⟨other, hother, rfl⟩ := exists_job hsecond
  have hsame : one = other := by
    apply hlegacy.uuids one hone other hother
    rw [jobIdFromObjectKey_eq hlegacy hone, jobIdFromObjectKey_eq hlegacy hother, huuid]
  rw [hsame]

theorem convertedJob_id (hlegacy : Convertible f legacy) {row : LegacyJobRow Weight}
    (hrow : row ∈ legacy.jobs.rows) :
    (convertedJob f newUuid row).id = uuidText (uuidOf f legacy row.id) := by
  simp [convertedJob, jobIdFromObjectKey_eq hlegacy hrow]

/-- The rows of contributions and of the outbox, as the conversion writes them. -/
def convertedDonation (f : Formats Weight) (legacy : LegacyTables Weight)
    (row : LegacyDonationRow) : SqlDonationRow :=
  donationWith (uuidOf f legacy row.jobId) row

def convertedOutbox (f : Formats Weight) (legacy : LegacyTables Weight) (row : LegacyOutboxRow) :
    SqlOutboxRow :=
  outboxWith (uuidOf f legacy row.jobId)
    (((legacy.jobs.find? row.jobId).map LegacyJobRow.status).getD "") row

/-! ## Partly converted stores -/

/-- The UUID tables hold the converted rows of some of the legacy rows. -/
structure Converted (f : Formats Weight) (newUuid : LegacyJobRow Weight → JobId)
    (legacy : LegacyTables Weight) (copied : Set (LegacyJobRow Weight))
    (donated : Set LegacyDonationRow) (noted : Set LegacyOutboxRow)
    (tables : SqlTables Weight) : Prop where
  jobs : tables.jobs.HoldsExactly (convertedJob f newUuid) copied
  donations : tables.donations.HoldsExactly (convertedDonation f legacy) donated
  outbox : tables.outbox.HoldsExactly (convertedOutbox f legacy) noted
  clients : tables.clients = legacy.clients
  jobs_subset : ∀ row ∈ copied, row ∈ legacy.jobs.rows
  donations_subset : ∀ row ∈ donated, row ∈ legacy.donations.rows
  outbox_subset : ∀ row ∈ noted, row ∈ legacy.outbox.rows

variable {copied : Set (LegacyJobRow Weight)} {donated : Set LegacyDonationRow}
  {noted : Set LegacyOutboxRow}

theorem Converted.insertJob (hlegacy : Convertible f legacy)
    (h : Converted f newUuid legacy copied donated noted tables) {row : LegacyJobRow Weight}
    (hrow : row ∈ legacy.jobs.rows) :
    ∃ written, convert f newUuid tables (.job row) = .ok written ∧
      Converted f newUuid legacy (insert row copied) donated noted written := by
  by_cases hmem : row ∈ copied
  · refine ⟨tables, ?_, ?_⟩
    · have hpresent : convertedJob f newUuid row ∈ tables.jobs.rows :=
        (h.jobs _).mpr ⟨row, hmem, rfl⟩
      have hfound : (tables.jobs.rows.any fun other => (convertedJob f newUuid row).legacyId.isSome &&
          other.legacyId = (convertedJob f newUuid row).legacyId) = true :=
        List.any_eq_true.mpr ⟨_, hpresent, by simp [convertedJob]⟩
      simp only [convert, Migration.insertJob, hfound, if_true]
    · rwa [Set.insert_eq_of_mem hmem]
  · have hother : ∀ other ∈ copied, other.id ≠ row.id := fun other hother hid =>
      hmem (eq_of_id (h.jobs_subset other hother) hrow hid ▸ hother)
    have huuid : ∀ other ∈ copied,
        (convertedJob f newUuid other).id ≠ (convertedJob f newUuid row).id := by
      intro other hin hid
      have hin' := h.jobs_subset other hin
      rw [convertedJob_id hlegacy hin', convertedJob_id hlegacy hrow] at hid
      have hsame := hlegacy.uuids other hin' row hrow (by
        rw [jobIdFromObjectKey_eq hlegacy hin', jobIdFromObjectKey_eq hlegacy hrow,
          Images.uuidText_injective hid])
      exact hother other hin (by rw [hsame])
    have hobject : ∀ other ∈ copied, other.objectKey ≠ row.objectKey := by
      intro other hin hkey
      have hsame := hlegacy.objectKeys other (h.jobs_subset other hin) row hrow hkey
      exact hother other hin (by rw [hsame])
    refine ⟨{ tables with jobs := tables.jobs.put (convertedJob f newUuid row) }, ?_, ?_⟩
    · simp only [convert, Migration.insertJob]
      rw [if_neg, if_neg]
      · simp only [List.any_eq_true, not_exists, not_and]
        intro other hin hcollides
        obtain ⟨held, hheld, rfl⟩ := (h.jobs other).mp hin
        have hapart : (convertedJob f newUuid held).collides (convertedJob f newUuid row) = false := by
          simp [SqlJobRow.collides, convertedJob, hother held hheld, hobject held hheld]
        rw [hapart, Bool.or_false, decide_eq_true_eq] at hcollides
        exact huuid held hheld hcollides
      · simp only [List.any_eq_true, not_exists, not_and]
        intro other hin hlegacyId
        obtain ⟨held, hheld, rfl⟩ := (h.jobs other).mp hin
        simp [convertedJob, hother held hheld] at hlegacyId
    · refine ⟨h.jobs.put fun other hin hid => absurd hid (huuid other hin), h.donations, h.outbox,
        h.clients, ?_, h.donations_subset, h.outbox_subset⟩
      rintro other (rfl | hin)
      · exact hrow
      · exact h.jobs_subset other hin

/-- The lookup by alias finds the UUID of a job that has been copied. -/
theorem Converted.uuidForLegacyId (hf : f.Lossless) (hlegacy : Convertible f legacy)
    (h : Converted f newUuid legacy copied donated noted tables) {row : LegacyJobRow Weight}
    (hrow : row ∈ legacy.jobs.rows) :
    (row ∈ copied → Migration.uuidForLegacyId f tables row.id =
      .ok (some (uuidOf f legacy row.id))) ∧
    (row ∉ copied → Migration.uuidForLegacyId f tables row.id = .ok none) := by
  unfold Migration.uuidForLegacyId
  cases hfind : tables.jobs.rows.find? fun other => other.legacyId = some row.id with
  | none =>
      refine ⟨fun hmem => ?_, fun _ => rfl⟩
      have hpresent : convertedJob f newUuid row ∈ tables.jobs.rows :=
        (h.jobs _).mpr ⟨row, hmem, rfl⟩
      have habsent := List.find?_eq_none.mp hfind _ hpresent
      simp [convertedJob] at habsent
  | some other =>
      obtain ⟨held, hheld, rfl⟩ := (h.jobs other).mp (List.mem_of_find?_eq_some hfind)
      have hid : held.id = row.id := by
        simpa [convertedJob] using List.find?_some hfind
      have hsame := eq_of_id (h.jobs_subset held hheld) hrow hid
      subst hsame
      refine ⟨fun _ => ?_, fun hmem => absurd hheld hmem⟩
      simp only
      rw [convertedJob_id hlegacy hrow, hf.uuid]

theorem Converted.insertDonation (hf : f.Lossless) (hlegacy : Convertible f legacy)
    (h : Converted f newUuid legacy copied donated noted tables) {row : LegacyDonationRow}
    (hrow : row ∈ legacy.donations.rows) :
    ∃ written, convert f newUuid tables (.donation row) = .ok written ∧
      ∃ donated', Converted f newUuid legacy copied donated' noted written ∧
        (∀ other ∈ donated, other ∈ donated') ∧
        ((∀ job ∈ legacy.jobs.rows, job ∈ copied) → row ∈ donated') := by
  obtain ⟨job, hjob, hid⟩ := exists_job (hlegacy.donations row hrow)
  obtain ⟨hfound, hmissing⟩ := h.uuidForLegacyId hf hlegacy hjob
  rw [hid] at hfound hmissing
  by_cases hcopied : job ∈ copied
  · have hkey : ∀ other ∈ donated, (convertedDonation f legacy other).jobId =
        (convertedDonation f legacy row).jobId → other = row := by
      intro other hother hjobId
      have hin := h.donations_subset other hother
      have huuid := id_eq_of_uuidOf hlegacy (hlegacy.donations other hin)
        (hlegacy.donations row hrow) (Images.uuidText_injective hjobId)
      exact List.inj_on_of_nodup_map legacy.donations.unique hin hrow huuid
    have hconvert : convert f newUuid tables (.donation row) =
        Migration.insertDonation tables (convertedDonation f legacy row) := by
      simp only [convert, hfound hcopied]
      rfl
    have hput : (tables.donations.put (convertedDonation f legacy row)).HoldsExactly
        (convertedDonation f legacy) (insert row donated) := h.donations.put hkey
    by_cases hmem : row ∈ donated
    · have hpresent : convertedDonation f legacy row ∈ tables.donations.rows :=
        (h.donations _).mpr ⟨row, hmem, rfl⟩
      refine ⟨tables, ?_, donated, h, fun _ hother => hother, fun _ => hmem⟩
      rw [hconvert]
      unfold Migration.insertDonation
      rw [KeyedTable.find?_of_mem hpresent]
      rfl
    · refine ⟨{ tables with donations := tables.donations.put (convertedDonation f legacy row) },
        ?_, insert row donated, ⟨h.jobs, hput, h.outbox, h.clients, h.jobs_subset, ?_,
          h.outbox_subset⟩, fun _ hother => Set.mem_insert_of_mem _ hother,
          fun _ => Set.mem_insert _ _⟩
      · have hfresh : tables.donations.find? (convertedDonation f legacy row).jobId = none := by
          unfold KeyedTable.find?
          rw [List.find?_eq_none]
          intro other hother
          obtain ⟨held, hheld, rfl⟩ := (h.donations other).mp hother
          rw [decide_eq_true_eq]
          exact fun heq => hmem (hkey held hheld heq ▸ hheld)
        have hobject : (tables.donations.rows.any fun other =>
            other.objectKey = (convertedDonation f legacy row).objectKey) = false := by
          rw [List.any_eq_false]
          intro other hother
          obtain ⟨held, hheld, rfl⟩ := (h.donations other).mp hother
          rw [decide_eq_true_eq]
          exact fun heq => hmem (hlegacy.donationKeys held (h.donations_subset held hheld) row hrow
            heq ▸ hheld)
        rw [hconvert]
        unfold Migration.insertDonation
        rw [hfresh, hobject]
        rfl
      · rintro other (rfl | hother)
        · exact hrow
        · exact h.donations_subset other hother
  · refine ⟨tables, ?_, donated, h, fun _ hother => hother, fun hall =>
      absurd (hall job hjob) hcopied⟩
    simp only [convert, hmissing hcopied]
    rfl

theorem Converted.insertOutbox (hf : f.Lossless) (hlegacy : Convertible f legacy)
    (h : Converted f newUuid legacy copied donated noted tables) {row : LegacyOutboxRow}
    (hrow : row ∈ legacy.outbox.rows) {job : LegacyJobRow Weight}
    (hjob : legacy.jobs.find? row.jobId = some job) :
    ∃ written, convert f newUuid tables (.outbox row job.status) = .ok written ∧
      ∃ noted', Converted f newUuid legacy copied donated noted' written ∧
        (∀ other ∈ noted, other ∈ noted') ∧
        ((∀ job ∈ legacy.jobs.rows, job ∈ copied) → row ∈ noted') := by
  have hin := KeyedTable.mem_of_find? hjob
  have hid := KeyedTable.key_of_find? hjob
  obtain ⟨hfound, hmissing⟩ := h.uuidForLegacyId hf hlegacy hin
  rw [hid] at hfound hmissing
  by_cases hcopied : job ∈ copied
  · have hkey : ∀ other ∈ noted, (convertedOutbox f legacy other).jobId =
        (convertedOutbox f legacy row).jobId → other = row := by
      intro other hother hjobId
      have hmem := h.outbox_subset other hother
      have huuid := id_eq_of_uuidOf hlegacy (hlegacy.outbox other hmem)
        (hlegacy.outbox row hrow) (Images.uuidText_injective hjobId)
      exact List.inj_on_of_nodup_map legacy.outbox.unique hmem hrow huuid
    have hconvert : convert f newUuid tables (.outbox row job.status) =
        .ok (Migration.insertOutbox tables (convertedOutbox f legacy row)) := by
      simp only [convert, convertedOutbox, hfound hcopied, hjob]
      rfl
    have hput : (tables.outbox.put (convertedOutbox f legacy row)).HoldsExactly
        (convertedOutbox f legacy) (insert row noted) := h.outbox.put hkey
    refine ⟨_, hconvert, insert row noted, ?_, fun _ hother => Set.mem_insert_of_mem _ hother,
      fun _ => Set.mem_insert _ _⟩
    have hsubset : ∀ other ∈ insert row noted, other ∈ legacy.outbox.rows := by
      rintro other (rfl | hother)
      · exact hrow
      · exact h.outbox_subset other hother
    unfold Migration.insertOutbox
    split
    next hpresent =>
      -- the row that is there is the row of this job
      obtain ⟨other, hother⟩ := Option.isSome_iff_exists.mp hpresent
      obtain ⟨held, hheld, rfl⟩ := (h.outbox other).mp (KeyedTable.mem_of_find? hother)
      have hsame := hkey held hheld (KeyedTable.key_of_find? hother)
      subst hsame
      rw [Set.insert_eq_of_mem hheld]
      exact h
    next => exact ⟨h.jobs, h.donations, hput, h.clients, h.jobs_subset, h.donations_subset, hsubset⟩
  · refine ⟨tables, ?_, noted, h, fun _ hother => hother, fun hall =>
      absurd (hall job hin) hcopied⟩
    simp only [convert, hmissing hcopied]
    rfl

/-! ## Complete conversions -/

theorem cases_conversionSteps {step : ConversionStep Weight}
    (hstep : step ∈ conversionSteps legacy) :
    (∃ row ∈ legacy.jobs.rows, step = .job row) ∨
    (∃ row ∈ legacy.donations.rows, step = .donation row) ∨
    ∃ row ∈ legacy.outbox.rows, ∃ job, legacy.jobs.find? row.jobId = some job ∧
      step = .outbox row job.status := by
  unfold conversionSteps at hstep
  rw [List.mem_append, List.mem_append, List.mem_map, List.mem_map, List.mem_filterMap] at hstep
  rcases hstep with (⟨row, hrow, rfl⟩ | ⟨row, hrow, rfl⟩) | ⟨row, hrow, hjoined⟩
  · exact .inl ⟨row, hrow, rfl⟩
  · exact .inr (.inl ⟨row, hrow, rfl⟩)
  · obtain ⟨job, hjob, rfl⟩ := Option.map_eq_some_iff.mp hjoined
    exact .inr (.inr ⟨row, hrow, job, hjob, rfl⟩)

/-- Any part of a conversion keeps the invariant. -/
theorem Converted.foldlM (hf : f.Lossless) (hlegacy : Convertible f legacy)
    {steps : List (ConversionStep Weight)} (hsteps : ∀ step ∈ steps, step ∈ conversionSteps legacy)
    (h : Converted f newUuid legacy copied donated noted tables) :
    ∃ written, steps.foldlM (convert f newUuid) tables = .ok written ∧
      ∃ copied donated noted, Converted f newUuid legacy copied donated noted written := by
  induction steps generalizing copied donated noted tables with
  | nil => exact ⟨tables, rfl, copied, donated, noted, h⟩
  | cons step steps ih =>
      rw [List.forall_mem_cons] at hsteps
      have hstep : ∃ middle, convert f newUuid tables step = .ok middle ∧
          ∃ copied donated noted, Converted f newUuid legacy copied donated noted middle := by
        rcases cases_conversionSteps hsteps.1 with
          ⟨row, hrow, rfl⟩ | ⟨row, hrow, rfl⟩ | ⟨row, hrow, job, hjob, rfl⟩
        · obtain ⟨middle, hmiddle, hheld⟩ := h.insertJob hlegacy hrow
          exact ⟨middle, hmiddle, _, _, _, hheld⟩
        · obtain ⟨middle, hmiddle, _, hheld, _⟩ := h.insertDonation hf hlegacy hrow
          exact ⟨middle, hmiddle, _, _, _, hheld⟩
        · obtain ⟨middle, hmiddle, _, hheld, _⟩ := h.insertOutbox hf hlegacy hrow hjob
          exact ⟨middle, hmiddle, _, _, _, hheld⟩
      obtain ⟨middle, hmiddle, _, _, _, hheld⟩ := hstep
      obtain ⟨written, hwritten, hlast⟩ := ih hsteps.2 hheld
      refine ⟨written, ?_, hlast⟩
      rw [List.foldlM_cons, hmiddle]
      exact hwritten

theorem Converted.copyJobs (hlegacy : Convertible f legacy) {rows : List (LegacyJobRow Weight)}
    (hrows : ∀ row ∈ rows, row ∈ legacy.jobs.rows)
    (h : Converted f newUuid legacy copied donated noted tables)
    (rest : List (ConversionStep Weight)) :
    ∃ written, (rows.map ConversionStep.job ++ rest).foldlM (convert f newUuid) tables =
        rest.foldlM (convert f newUuid) written ∧
      ∃ copied', Converted f newUuid legacy copied' donated noted written ∧
        (∀ row ∈ copied, row ∈ copied') ∧ ∀ row ∈ rows, row ∈ copied' := by
  induction rows generalizing copied tables with
  | nil => exact ⟨tables, rfl, copied, h, fun _ hrow => hrow, by simp⟩
  | cons row rows ih =>
      rw [List.forall_mem_cons] at hrows
      obtain ⟨middle, hmiddle, hheld⟩ := h.insertJob hlegacy hrows.1
      obtain ⟨written, hwritten, copied', hlast, hkept, hall⟩ := ih hrows.2 hheld
      refine ⟨written, ?_, copied', hlast, fun other hother =>
        hkept other (Set.mem_insert_of_mem _ hother), ?_⟩
      · rw [List.map_cons, List.cons_append, List.foldlM_cons, hmiddle]
        exact hwritten
      · rw [List.forall_mem_cons]
        exact ⟨hkept row (Set.mem_insert _ _), hall⟩

theorem Converted.copyDonations (hf : f.Lossless) (hlegacy : Convertible f legacy)
    (hcopied : ∀ job ∈ legacy.jobs.rows, job ∈ copied) {rows : List LegacyDonationRow}
    (hrows : ∀ row ∈ rows, row ∈ legacy.donations.rows)
    (h : Converted f newUuid legacy copied donated noted tables)
    (rest : List (ConversionStep Weight)) :
    ∃ written, (rows.map ConversionStep.donation ++ rest).foldlM (convert f newUuid) tables =
        rest.foldlM (convert f newUuid) written ∧
      ∃ donated', Converted f newUuid legacy copied donated' noted written ∧
        (∀ row ∈ donated, row ∈ donated') ∧ ∀ row ∈ rows, row ∈ donated' := by
  induction rows generalizing donated tables with
  | nil => exact ⟨tables, rfl, donated, h, fun _ hrow => hrow, by simp⟩
  | cons row rows ih =>
      rw [List.forall_mem_cons] at hrows
      obtain ⟨middle, hmiddle, _, hheld, hsub, hmem⟩ := h.insertDonation hf hlegacy hrows.1
      obtain ⟨written, hwritten, donated', hlast, hkept, hall⟩ := ih hrows.2 hheld
      refine ⟨written, ?_, donated', hlast, fun other hother => hkept other (hsub other hother), ?_⟩
      · rw [List.map_cons, List.cons_append, List.foldlM_cons, hmiddle]
        exact hwritten
      · rw [List.forall_mem_cons]
        exact ⟨hkept row (hmem hcopied), hall⟩

theorem Converted.copyOutbox (hf : f.Lossless) (hlegacy : Convertible f legacy)
    (hcopied : ∀ job ∈ legacy.jobs.rows, job ∈ copied) {rows : List LegacyOutboxRow}
    (hrows : ∀ row ∈ rows, row ∈ legacy.outbox.rows)
    (h : Converted f newUuid legacy copied donated noted tables) :
    ∃ written, (rows.filterMap fun row => (legacy.jobs.find? row.jobId).map fun job =>
          ConversionStep.outbox row job.status).foldlM (convert f newUuid) tables = .ok written ∧
      ∃ noted', Converted f newUuid legacy copied donated noted' written ∧
        (∀ row ∈ noted, row ∈ noted') ∧ ∀ row ∈ rows, row ∈ noted' := by
  induction rows generalizing noted tables with
  | nil => exact ⟨tables, rfl, noted, h, fun _ hrow => hrow, by simp⟩
  | cons row rows ih =>
      rw [List.forall_mem_cons] at hrows
      obtain ⟨job, hjob⟩ := Option.isSome_iff_exists.mp (hlegacy.outbox row hrows.1)
      obtain ⟨middle, hmiddle, _, hheld, hsub, hmem⟩ := h.insertOutbox hf hlegacy hrows.1 hjob
      obtain ⟨written, hwritten, noted', hlast, hkept, hall⟩ := ih hrows.2 hheld
      refine ⟨written, ?_, noted', hlast, fun other hother => hkept other (hsub other hother), ?_⟩
      · rw [List.filterMap_cons_some (by rw [hjob]; rfl), List.foldlM_cons, hmiddle]
        exact hwritten
      · rw [List.forall_mem_cons]
        exact ⟨hkept row (hmem hcopied), hall⟩

/-- From any partly converted state a whole conversion copies every row. -/
theorem Converted.migrateLegacyJobs (hf : f.Lossless) (hlegacy : Convertible f legacy)
    (h : Converted f newUuid legacy copied donated noted tables) :
    ∃ written, Migration.migrateLegacyJobs f newUuid legacy tables = .ok written ∧
      Converted f newUuid legacy {row | row ∈ legacy.jobs.rows}
        {row | row ∈ legacy.donations.rows} {row | row ∈ legacy.outbox.rows} written := by
  obtain ⟨withJobs, hjobs, copied', hheld, _, hcopied⟩ := h.copyJobs hlegacy (fun _ hrow => hrow)
    (legacy.donations.rows.map .donation ++ legacy.outbox.rows.filterMap fun row =>
      (legacy.jobs.find? row.jobId).map fun job => .outbox row job.status)
  obtain ⟨withDonations, hdonations, donated', hheld, _, hdonated⟩ := hheld.copyDonations hf hlegacy
    hcopied (fun _ hrow => hrow) (legacy.outbox.rows.filterMap fun row =>
      (legacy.jobs.find? row.jobId).map fun job => .outbox row job.status)
  obtain ⟨written, hwritten, noted', hheld, _, hnoted⟩ := hheld.copyOutbox hf hlegacy hcopied
    fun _ hrow => hrow
  refine ⟨written, ?_, ?_⟩
  · unfold Migration.migrateLegacyJobs conversionSteps
    rw [List.append_assoc, hjobs, hdonations, hwritten]
  · have hcopies : copied' = {row | row ∈ legacy.jobs.rows} :=
      Set.ext fun row => ⟨hheld.jobs_subset row, hcopied row⟩
    have hdonations : donated' = {row | row ∈ legacy.donations.rows} :=
      Set.ext fun row => ⟨hheld.donations_subset row, hdonated row⟩
    have hnotes : noted' = {row | row ∈ legacy.outbox.rows} :=
      Set.ext fun row => ⟨hheld.outbox_subset row, hnoted row⟩
    rwa [hcopies, hdonations, hnotes] at hheld

/-! ## Reading a converted store -/

theorem fromI64_eq_ok {value : ℤ} {field : String} {number : ℕ} :
    fromI64 value field = .ok number ↔ value = number := by
  unfold fromI64
  constructor
  · intro hok
    split at hok
    next hnonneg =>
      cases hok
      exact (Int.toNat_of_nonneg hnonneg).symm
    next => cases hok
  · rintro rfl
    simp

/-- What a legacy row that can be read says about its job. -/
theorem legacyJobFromRow_eq_ok (hlegacy : Convertible f legacy) {row : LegacyJobRow Weight}
    (hrow : row ∈ legacy.jobs.rows) {job : StoredJob Weight}
    (hread : legacyJobFromRow f legacy row = .ok job) :
    ∃ legacyId attempts posted, row.id = (legacyId : ℕ) ∧ row.attempts = (attempts : ℕ) ∧
      legacy.outbox.find? row.id = some posted ∧ job =
        { id := uuidOf f legacy row.id
          astrometryId := legacyId
          legacyId := some legacyId
          owner := row.owner
          queueWeight := row.queueWeight
          objectKey := row.objectKey
          originalFilename := row.originalFilename
          contentType := row.contentType
          optionsJson := row.optionsJson
          status := row.status
          createdAt := row.createdAt
          startedAt := row.startedAt
          completedAt := row.completedAt
          solutionJson := row.solutionJson
          error := row.error
          leaseToken := row.leaseToken
          leaseExpiresAt := row.leaseExpiresAt
          attempts := attempts
          notificationDeliveredAt := if row.status = "queued" then none else posted.deliveredAt } := by
  unfold legacyJobFromRow at hread
  obtain ⟨legacyId, hid, hread⟩ := bind_eq_ok.mp hread
  rw [jobIdFromObjectKey_eq hlegacy hrow] at hread
  cases hposted : legacy.outbox.find? row.id with
  | none =>
      rw [hposted] at hread
      cases hread
  | some posted =>
      rw [hposted] at hread
      obtain ⟨attempts, hattempts, hjob⟩ := bind_eq_ok.mp hread
      cases hjob
      exact ⟨legacyId, attempts, posted, fromI64_eq_ok.mp hid, fromI64_eq_ok.mp hattempts, rfl, rfl⟩

/-- A copied job is read from the UUID tables as from the legacy tables. -/
theorem jobFromRow_convertedJob (hf : f.Lossless) (hlegacy : Convertible f legacy)
    (h : Converted f newUuid legacy copied donated noted tables)
    (hnoted : ∀ row ∈ legacy.outbox.rows, row ∈ noted) {row : LegacyJobRow Weight}
    (hrow : row ∈ legacy.jobs.rows) {job : StoredJob Weight}
    (hread : legacyJobFromRow f legacy row = .ok job) :
    jobFromRow f tables (convertedJob f newUuid row) = .ok job := by
  obtain ⟨legacyId, attempts, posted, hid, hattempts, hposted, rfl⟩ :=
    legacyJobFromRow_eq_ok hlegacy hrow hread
  have hposting : convertedOutbox f legacy posted ∈ tables.outbox.rows :=
    (h.outbox _).mpr ⟨posted, hnoted posted (KeyedTable.mem_of_find? hposted), rfl⟩
  have hpostedId : posted.jobId = row.id := KeyedTable.key_of_find? hposted
  have hfound := KeyedTable.find?_of_mem hposting
  have hkey : (convertedOutbox f legacy posted).jobId = uuidText (uuidOf f legacy row.id) := by
    rw [← hpostedId]
    rfl
  have hdelivered : (convertedOutbox f legacy posted).deliveredAt =
      if row.status = "queued" then none else posted.deliveredAt := by
    simp only [convertedOutbox, outboxWith, hpostedId, KeyedTable.find?_of_mem hrow,
      Option.map_some, Option.getD_some]
  rw [hkey] at hfound
  have hidText : (convertedJob f newUuid row).id = uuidText (uuidOf f legacy row.id) :=
    convertedJob_id hlegacy hrow
  unfold jobFromRow parseStoredUuid
  simp only [hidText, hf.uuid, hfound, bind, Except.bind, hdelivered]
  simp only [convertedJob, hid, hattempts, fromI64_natCast, fromOptionalI64, Except.map]

theorem mem_of_legacyToUuid {jobs : List (StoredJob Weight)} {legacyId : ℕ} {jobId : JobId}
    (hfind : legacyToUuid jobs legacyId = some jobId) :
    ∃ job ∈ jobs, job.legacyId = some legacyId ∧ job.id = jobId := by
  unfold legacyToUuid at hfind
  obtain ⟨entry, hlast, rfl⟩ := Option.map_eq_some_iff.mp hfind
  obtain ⟨hmem, hkey⟩ := mem_of_lastWith hlast
  obtain ⟨job, hjob, hentry⟩ := List.mem_filterMap.mp hmem
  obtain ⟨value, hvalue, rfl⟩ := Option.map_eq_some_iff.mp hentry
  simp only at hkey
  subst hkey
  exact ⟨job, hjob, hvalue, rfl⟩

theorem legacyDonationFromRow_eq_ok (hlegacy : Convertible f legacy) {jobs : List (StoredJob Weight)}
    (hjobs : ∀ job ∈ jobs, ∃ row ∈ legacy.jobs.rows, legacyJobFromRow f legacy row = .ok job)
    {row : LegacyDonationRow} {donation : StoredDonation}
    (hread : legacyDonationFromRow jobs row = .ok donation) :
    donation =
      { jobId := uuidOf f legacy row.jobId
        objectKey := row.objectKey
        comment := row.comment
        solveIsInvalid := row.solveIsInvalid ≠ 0
        licenseVersion := row.licenseVersion
        donatedAt := row.donatedAt } := by
  unfold legacyDonationFromRow at hread
  obtain ⟨legacyId, hid, hread⟩ := bind_eq_ok.mp hread
  cases hfind : legacyToUuid jobs legacyId with
  | none =>
      rw [hfind] at hread
      cases hread
  | some jobId =>
      rw [hfind] at hread
      cases hread
      obtain ⟨job, hjob, hjobLegacy, rfl⟩ := mem_of_legacyToUuid hfind
      obtain ⟨source, hsource, hsourceRead⟩ := hjobs job hjob
      obtain ⟨number, _, _, hnumber, _, _, rfl⟩ :=
        legacyJobFromRow_eq_ok hlegacy hsource hsourceRead
      simp only [Option.some.injEq] at hjobLegacy
      have hsame : source.id = row.jobId := by
        rw [hnumber, fromI64_eq_ok.mp hid, hjobLegacy]
      rw [← hsame]

theorem donationFromRow_convertedDonation (hf : f.Lossless) (row : LegacyDonationRow) :
    donationFromRow f (convertedDonation f legacy row) = .ok
      { jobId := uuidOf f legacy row.jobId
        objectKey := row.objectKey
        comment := row.comment
        solveIsInvalid := row.solveIsInvalid ≠ 0
        licenseVersion := row.licenseVersion
        donatedAt := row.donatedAt } := by
  have hid : parseStoredUuid f (convertedDonation f legacy row).jobId
      "validation contribution job ID" = .ok (uuidOf f legacy row.jobId) := by
    simp [parseStoredUuid, convertedDonation, donationWith, hf.uuid]
  unfold donationFromRow
  rw [hid]
  rfl

/-- Rows with the same values sort to the same snapshot. -/
theorem new_congr {jobs jobs' : List (StoredJob Weight)} {donations donations' : List StoredDonation}
    {clients : List StoredClient} (hjobs : jobs'.Perm jobs) (hdonations : donations'.Perm donations)
    (hids : (jobs.map StoredJob.rank).Nodup)
    (hdonationIds : (donations.map StoredDonation.rank).Nodup) :
    StoreSnapshot.new jobs' donations' clients = .new jobs donations clients := by
  unfold StoreSnapshot.new
  rw [sortByKey_eq_of_perm hjobs.symm hids, sortByKey_eq_of_perm hdonations.symm hdonationIds]

theorem nodup_legacyRanks (hlegacy : Convertible f legacy) {α : Type} {rows : List α}
    {idOf : α → ℤ} (hnodup : (rows.map idOf).Nodup)
    (hrows : ∀ row ∈ rows, (legacy.jobs.find? (idOf row)).isSome) :
    (rows.map fun row => (uuidOf f legacy (idOf row)).toNat).Nodup := by
  refine (hnodup.of_map _).map_on ?_
  intro first hfirst second hsecond hsame
  have hid := id_eq_of_uuidOf hlegacy (hrows first hfirst) (hrows second hsecond)
    (BitVec.eq_of_toNat_eq hsame)
  exact List.inj_on_of_nodup_map hnodup hfirst hsecond hid

theorem perm_convertedJobs (hlegacy : Convertible f legacy)
    (h : Converted f newUuid legacy {row | row ∈ legacy.jobs.rows} donated noted tables) :
    tables.jobs.rows.Perm (legacy.jobs.rows.map (convertedJob f newUuid)) := by
  refine h.jobs.perm ?_
  refine (legacy.jobs.unique.of_map _).map_on ?_
  intro first hfirst second hsecond hsame
  rw [convertedJob_id hlegacy hfirst, convertedJob_id hlegacy hsecond] at hsame
  apply hlegacy.uuids first hfirst second hsecond
  rw [jobIdFromObjectKey_eq hlegacy hfirst, jobIdFromObjectKey_eq hlegacy hsecond,
    Images.uuidText_injective hsame]

theorem perm_convertedDonations (hlegacy : Convertible f legacy)
    (h : Converted f newUuid legacy copied {row | row ∈ legacy.donations.rows} noted tables) :
    tables.donations.rows.Perm (legacy.donations.rows.map (convertedDonation f legacy)) := by
  refine h.donations.perm ?_
  refine (legacy.donations.unique.of_map _).map_on ?_
  intro first hfirst second hsecond hsame
  have hid := id_eq_of_uuidOf hlegacy (hlegacy.donations first hfirst)
    (hlegacy.donations second hsecond) (Images.uuidText_injective hsame)
  exact List.inj_on_of_nodup_map legacy.donations.unique hfirst hsecond hid

theorem Converted.ensureNoOrphanOutbox (hlegacy : Convertible f legacy)
    (h : Converted f newUuid legacy {row | row ∈ legacy.jobs.rows} donated noted tables) :
    Migration.ensureNoOrphanOutbox tables = .ok () := by
  have hnone : tables.outbox.rows.countP (fun row => (tables.jobs.find? row.jobId).isNone) = 0 := by
    rw [List.countP_eq_zero]
    intro row hrow
    obtain ⟨posted, hposted, rfl⟩ := (h.outbox row).mp hrow
    obtain ⟨job, hjob, hid⟩ := exists_job (hlegacy.outbox posted (h.outbox_subset posted hposted))
    have hpresent : convertedJob f newUuid job ∈ tables.jobs.rows :=
      (h.jobs _).mpr ⟨job, hjob, rfl⟩
    have hfound := KeyedTable.find?_of_mem hpresent
    rw [convertedJob_id hlegacy hjob, hid] at hfound
    have hkey : (convertedOutbox f legacy posted).jobId =
        uuidText (uuidOf f legacy posted.jobId) := rfl
    rw [hkey, hfound]
    simp
  simp [Migration.ensureNoOrphanOutbox, hnone]

/-- A completely converted store is read as the legacy store it came from. -/
theorem Converted.snapshot (hf : f.Lossless) (hlegacy : Convertible f legacy)
    (h : Converted f newUuid legacy {row | row ∈ legacy.jobs.rows}
      {row | row ∈ legacy.donations.rows} {row | row ∈ legacy.outbox.rows} tables)
    {s : StoreSnapshot Weight} (hsnapshot : snapshotLegacySql f legacy = .ok s) :
    snapshotUuidSql f tables = .ok s := by
  unfold snapshotLegacySql at hsnapshot
  obtain ⟨jobs, hjobs, hsnapshot⟩ := bind_eq_ok.mp hsnapshot
  obtain ⟨_, _, hsnapshot⟩ := bind_eq_ok.mp hsnapshot
  obtain ⟨donations, hdonations, hsnapshot⟩ := bind_eq_ok.mp hsnapshot
  cases hsnapshot
  have hjobRows := forall₂_and_mem (mapM_of_eq_ok hjobs)
  have hdonationRows := forall₂_and_mem (mapM_of_eq_ok hdonations)
  have hjobsOf : ∀ job ∈ jobs, ∃ row ∈ legacy.jobs.rows, legacyJobFromRow f legacy row = .ok job := by
    intro job hjob
    obtain ⟨row, _, hrow, hread⟩ := exists_of_mem_right hjobRows hjob
    exact ⟨row, mem_sortByKey.mp hrow, hread⟩
  -- both orders give the same jobs and contributions
  obtain ⟨jobs', hjobs', hsameJobs⟩ := exists_mapM_of_rewrite (jobFromRow f tables) hjobs
    (fun row hrow job hread => jobFromRow_convertedJob hf hlegacy h (fun _ hposted => hposted)
      (mem_sortByKey.mp hrow) hread)
    ((sortByKey_perm SqlJobRow.id tables.jobs.rows).trans ((perm_convertedJobs hlegacy h).trans
      ((sortByKey_perm LegacyJobRow.id legacy.jobs.rows).map _).symm))
  obtain ⟨donations', hdonations', hsameDonations⟩ := exists_mapM_of_rewrite
    (donationFromRow f) hdonations
    (fun row _ donation hread => by
      rw [donationFromRow_convertedDonation hf, legacyDonationFromRow_eq_ok hlegacy hjobsOf hread])
    ((sortByKey_perm SqlDonationRow.jobId tables.donations.rows).trans
      ((perm_convertedDonations hlegacy h).trans
        ((sortByKey_perm LegacyDonationRow.jobId legacy.donations.rows).map _).symm))
  -- and no two of them share their UUID
  have hranks : (jobs.map StoredJob.rank).Nodup := by
    have heq : ((sortByKey LegacyJobRow.id legacy.jobs.rows).map fun row =>
        (uuidOf f legacy row.id).toNat) = jobs.map StoredJob.rank := by
      refine map_eq_of_forall₂ ?_ hjobRows
      rintro row job ⟨hrow, hread⟩
      obtain ⟨_, _, _, _, _, _, rfl⟩ :=
        legacyJobFromRow_eq_ok hlegacy (mem_sortByKey.mp hrow) hread
      rfl
    have hnodup : ((sortByKey LegacyJobRow.id legacy.jobs.rows).map LegacyJobRow.id).Nodup :=
      ((sortByKey_perm _ _).map _).nodup_iff.mpr legacy.jobs.unique
    rw [← heq]
    refine nodup_legacyRanks hlegacy hnodup fun row hrow => ?_
    rw [KeyedTable.find?_of_mem (mem_sortByKey.mp hrow)]
    rfl
  have hdonationRanks : (donations.map StoredDonation.rank).Nodup := by
    have heq : ((sortByKey LegacyDonationRow.jobId legacy.donations.rows).map fun row =>
        (uuidOf f legacy row.jobId).toNat) = donations.map StoredDonation.rank := by
      refine map_eq_of_forall₂ ?_ hdonationRows
      rintro row donation ⟨hrow, hread⟩
      rw [legacyDonationFromRow_eq_ok hlegacy hjobsOf hread]
      rfl
    have hnodup : ((sortByKey LegacyDonationRow.jobId legacy.donations.rows).map
        LegacyDonationRow.jobId).Nodup :=
      ((sortByKey_perm _ _).map _).nodup_iff.mpr legacy.donations.unique
    rw [← heq]
    exact nodup_legacyRanks hlegacy hnodup fun row hrow =>
      hlegacy.donations row (mem_sortByKey.mp hrow)
  unfold snapshotUuidSql
  simp only [hjobs', hdonations', h.ensureNoOrphanOutbox hlegacy, h.clients, bind, Except.bind]
  rw [new_congr hsameJobs hsameDonations hranks hdonationRanks]

/-! ## A legacy store with one job -/

def sampleLegacyJob : LegacyJobRow ℕ where
  id := 7
  owner := "legacy"
  queueWeight := 1
  objectKey := "00000000-0000-0000-0000-000000000007.fits"
  originalFilename := "legacy.fits"
  contentType := none
  optionsJson := "\x7b\x7d"
  status := "queued"
  createdAt := sampleTime
  startedAt := none
  completedAt := none
  solutionJson := none
  error := none
  leaseToken := none
  leaseExpiresAt := none
  attempts := 1

theorem jobIdFromObjectKey_sample :
    jobIdFromObjectKey sampleFormats.parseUuid sampleLegacyJob.objectKey = some 7 := by
  simp only [sampleFormats, sampleLegacyJob]
  decide

def sampleLegacy : LegacyTables ℕ where
  jobs := ⟨[sampleLegacyJob], List.nodup_singleton _⟩
  donations := .empty
  outbox := ⟨[⟨7, some sampleTime⟩], List.nodup_singleton _⟩
  clients := .empty

theorem convertible_sampleLegacy : Convertible sampleFormats sampleLegacy := by
  constructor
  case uuid =>
    simp [sampleLegacy, jobIdFromObjectKey_sample]
  all_goals simp [sampleLegacy, KeyedTable.empty, KeyedTable.find?, sampleLegacyJob]

def sampleConvertedJob : StoredJob ℕ where
  id := 7
  astrometryId := 7
  legacyId := some 7
  owner := "legacy"
  queueWeight := 1
  objectKey := "00000000-0000-0000-0000-000000000007.fits"
  originalFilename := "legacy.fits"
  contentType := none
  optionsJson := "\x7b\x7d"
  status := "queued"
  createdAt := sampleTime
  startedAt := none
  completedAt := none
  solutionJson := none
  error := none
  leaseToken := none
  leaseExpiresAt := none
  attempts := 1
  notificationDeliveredAt := none

theorem snapshot_sampleLegacy : snapshotLegacySql sampleFormats sampleLegacy =
    .ok (.new [sampleConvertedJob] [] []) := by
  have hjob : legacyJobFromRow sampleFormats sampleLegacy sampleLegacyJob =
      .ok sampleConvertedJob := by
    have hposted : sampleLegacy.outbox.find? sampleLegacyJob.id = some ⟨7, some sampleTime⟩ := rfl
    unfold legacyJobFromRow
    rw [jobIdFromObjectKey_sample, hposted]
    rfl
  have horphans : ensureNoOrphanLegacyOutbox sampleLegacy = .ok () := by
    simp [ensureNoOrphanLegacyOutbox, sampleLegacy, KeyedTable.find?, sampleLegacyJob]
  have hrows : sortByKey LegacyJobRow.id sampleLegacy.jobs.rows = [sampleLegacyJob] := by
    simp [sampleLegacy, sortByKey]
  have hdonations : sortByKey LegacyDonationRow.jobId sampleLegacy.donations.rows = [] := by
    simp [sampleLegacy, KeyedTable.empty, sortByKey]
  have hclients : sortByKey StoredClient.owner sampleLegacy.clients.rows = [] := by
    simp [sampleLegacy, KeyedTable.empty, sortByKey]
  simp [snapshotLegacySql, hrows, hdonations, hclients, hjob, horphans, bind, Except.bind, pure,
    Except.pure]

/-! ## Interrupted conversions -/

/-- Where a legacy store can be converted, copying it into empty UUID tables,
however often the copying stops between two statements and starts again, leaves
tables that are read exactly as the legacy tables are read in memory. -/
theorem legacy_conversions_agree (hf : f.Lossless) (hlegacy : Convertible f legacy)
    (hclients : tables.clients = legacy.clients) (hjobs : tables.jobs.rows = [])
    (hdonations : tables.donations.rows = []) (houtbox : tables.outbox.rows = [])
    {s : StoreSnapshot Weight} (hsnapshot : snapshotLegacySql f legacy = .ok s)
    (stops : List ℕ) :
    ∃ stopped written, stops.foldlM (fun tables stop =>
        migrateLegacyUntil f newUuid legacy stop tables) tables = .ok stopped ∧
      migrateLegacyJobs f newUuid legacy stopped = .ok written ∧
      snapshotUuidSql f written = .ok s := by
  have hempty : Converted f newUuid legacy ∅ ∅ ∅ tables :=
    ⟨KeyedTable.holdsExactly_of_isEmpty hjobs _, KeyedTable.holdsExactly_of_isEmpty hdonations _,
      KeyedTable.holdsExactly_of_isEmpty houtbox _, hclients, by simp, by simp, by simp⟩
  have hattempts : ∀ (stops : List ℕ) (tables : SqlTables Weight) copied donated noted,
      Converted f newUuid legacy copied donated noted tables →
        ∃ stopped, stops.foldlM (fun tables stop =>
          migrateLegacyUntil f newUuid legacy stop tables) tables = .ok stopped ∧
        ∃ copied donated noted, Converted f newUuid legacy copied donated noted stopped := by
    intro stops
    induction stops with
    | nil => exact fun tables copied donated noted h => ⟨tables, rfl, copied, donated, noted, h⟩
    | cons stop stops ih =>
        intro tables copied donated noted h
        obtain ⟨middle, hmiddle, _, _, _, hheld⟩ := h.foldlM hf hlegacy
          (fun _ hstep => List.mem_of_mem_take (i := stop) hstep)
        obtain ⟨stopped, hstopped, hlast⟩ := ih middle _ _ _ hheld
        refine ⟨stopped, ?_, hlast⟩
        rw [List.foldlM_cons, migrateLegacyUntil, hmiddle]
        exact hstopped
  obtain ⟨stopped, hstopped, _, _, _, hheld⟩ := hattempts stops tables ∅ ∅ ∅ hempty
  obtain ⟨written, hwritten, hcomplete⟩ := hheld.migrateLegacyJobs hf hlegacy
  exact ⟨stopped, written, hstopped, hwritten, hcomplete.snapshot hf hlegacy hsnapshot⟩

theorem legacy_conversions_agree_sample :
    ∃ stopped written, [1, 0].foldlM (fun tables stop => migrateLegacyUntil sampleFormats
        (fun _ => 0) sampleLegacy stop tables) (SqlTables.empty : SqlTables ℕ) = .ok stopped ∧
      migrateLegacyJobs sampleFormats (fun _ => 0) sampleLegacy stopped = .ok written ∧
      snapshotUuidSql sampleFormats written = .ok (.new [sampleConvertedJob] [] []) :=
  legacy_conversions_agree lossless_sampleFormats convertible_sampleLegacy rfl rfl rfl rfl
    snapshot_sampleLegacy [1, 0]

/-! ## Statements of the repository -/

/-- What the repository writes to the UUID tables, one statement each (an
enqueue inserts the job and its notification in one transaction). -/
inductive Statement (Weight : Type) where
  | enqueue (job : SqlJobRow Weight)
  | claim (id startedAt token expiresAt : String)
  | serve (client : StoredClient)
  | heartbeat (id token expiresAt now : String)
  | complete (id token now status completedAt : String) (solutionJson error : Option String)
  | requeue (id : String)
  | repend (id : String)
  | donate (donation : SqlDonationRow)
  | deliver (id deliveredAt : String)

/-- The row that an enqueue inserts. -/
def enqueuedRow (job : SqlJobRow Weight) : SqlJobRow Weight :=
  { job with
    legacyId := none
    status := "queued"
    startedAt := none
    completedAt := none
    solutionJson := none
    error := none
    leaseToken := none
    leaseExpiresAt := none
    attempts := 0 }

/-- `later` is the order in which the database compares texts.  A statement that
violates a constraint leaves the tables as they are. -/
def execute (later : String → String → Bool) (tables : SqlTables Weight) :
    Statement Weight → SqlTables Weight
  | .enqueue job =>
      match tables.jobs.insert? (enqueuedRow job), tables.outbox.insert? ⟨job.id, none⟩ with
      | some jobs, some outbox =>
          if tables.jobs.rows.any fun other => other.collides (enqueuedRow job) then tables
          else { tables with jobs, outbox }
      | _, _ => tables
  | .claim id startedAt token expiresAt =>
      { tables with
        jobs := tables.jobs.modify (fun row => row.id = id && row.status = "queued") fun row =>
          { row with
            status := "solving"
            startedAt := some startedAt
            leaseToken := some token
            leaseExpiresAt := some expiresAt
            attempts := row.attempts + 1 } }
  | .serve client => { tables with clients := tables.clients.put client }
  | .heartbeat id token expiresAt now =>
      { tables with
        jobs := tables.jobs.modify
          (fun row => row.id = id && row.status = "solving" && row.leaseToken = some token &&
            row.leaseExpiresAt.any fun expiry => later expiry now)
          fun row => { row with leaseExpiresAt := some expiresAt } }
  | .complete id token now status completedAt solutionJson error =>
      { tables with
        jobs := tables.jobs.modify
          (fun row => row.id = id && row.status = "solving" && row.leaseToken = some token &&
            row.leaseExpiresAt.any fun expiry => later expiry now)
          fun row =>
            { row with
              status
              completedAt := some completedAt
              solutionJson
              error
              leaseToken := none
              leaseExpiresAt := none } }
  | .requeue id =>
      { tables with
        jobs := tables.jobs.modify (fun row => row.id = id && row.status = "solving") fun row =>
          { row with status := "queued", leaseToken := none, leaseExpiresAt := none } }
  | .repend id =>
      { tables with
        outbox := tables.outbox.upsert ⟨id, none⟩ fun row => { row with deliveredAt := none } }
  | .donate donation =>
      if tables.donations.rows.any fun other =>
          other.jobId ≠ donation.jobId && other.objectKey = donation.objectKey then tables
      else
        { tables with
          donations := tables.donations.upsert donation fun row =>
            { row with
              objectKey := donation.objectKey
              comment := donation.comment
              solveIsInvalid := donation.solveIsInvalid } }
  | .deliver id deliveredAt =>
      { tables with
        outbox := tables.outbox.modify (fun row => row.jobId = id) fun row =>
          { row with deliveredAt := some deliveredAt } }

/-! ## Starting again -/

/-- The store has lived on: its jobs, contributions and notifications are still
there under their keys, whatever else they say now. -/
structure Grown (before after : SqlTables Weight) : Prop where
  jobs : ∀ row ∈ before.jobs.rows, ∃ row' ∈ after.jobs.rows,
    row'.id = row.id ∧ row'.legacyId = row.legacyId
  legacyIds : ∀ first ∈ after.jobs.rows, ∀ second ∈ after.jobs.rows,
    first.legacyId.isSome → first.legacyId = second.legacyId → first = second
  donations : ∀ row ∈ before.donations.rows, (after.donations.find? row.jobId).isSome
  outbox : ∀ row ∈ before.outbox.rows, (after.outbox.find? row.jobId).isSome

variable {after : SqlTables Weight}

/-- An update keeps the ids of the jobs. -/
theorem Grown.modify (hgrown : Grown tables after) (p : SqlJobRow Weight → Bool)
    (change : SqlJobRow Weight → SqlJobRow Weight) (hid : ∀ row, (change row).id = row.id)
    (hlegacy : ∀ row, (change row).legacyId = row.legacyId) :
    Grown tables { after with jobs := after.jobs.modify p change hid } where
  jobs := by
    intro row hrow
    obtain ⟨row', hrow', hsame⟩ := hgrown.jobs row hrow
    refine ⟨if p row' then change row' else row', List.mem_map_of_mem hrow', ?_⟩
    split_ifs
    · rw [hid, hlegacy]
      exact hsame
    · exact hsame
  legacyIds := by
    intro first hfirst second hsecond hsome hsame
    obtain ⟨one, hone, rfl⟩ := List.mem_map.mp hfirst
    obtain ⟨other, hother, rfl⟩ := List.mem_map.mp hsecond
    have hkept : ∀ row : SqlJobRow Weight,
        (if p row then change row else row).legacyId = row.legacyId := by
      intro row
      split_ifs
      · exact hlegacy row
      · rfl
    rw [hkept] at hsome hsame
    rw [hkept] at hsame
    rw [hgrown.legacyIds one hone other hother hsome hsame]
  donations := hgrown.donations
  outbox := hgrown.outbox

/-- Every statement of the repository keeps what was converted. -/
theorem Grown.execute (hgrown : Grown tables after) (later : String → String → Bool)
    (statement : Statement Weight) :
    Grown tables (Migration.execute later after statement) := by
  cases statement with
  | enqueue job =>
      simp only [Migration.execute]
      split
      next jobs outbox hjobs houtbox =>
        split_ifs
        · exact hgrown
        · have hrows := KeyedTable.rows_of_insert? hjobs
          constructor
          · intro row hrow
            obtain ⟨row', hrow', hsame⟩ := hgrown.jobs row hrow
            exact ⟨row', by simp [hrows, hrow'], hsame⟩
          · intro first hfirst second hsecond hsome hsame
            have hold : ∀ row ∈ jobs.rows, row.legacyId.isSome → row ∈ after.jobs.rows := by
              intro row hrow halias
              rw [hrows, List.mem_append, List.mem_singleton] at hrow
              refine hrow.resolve_right ?_
              rintro rfl
              cases halias
            exact hgrown.legacyIds first (hold first hfirst hsome) second
              (hold second hsecond (hsame ▸ hsome)) hsome hsame
          · exact hgrown.donations
          · intro row hrow
            rw [KeyedTable.find?_insert? houtbox]
            split_ifs
            · rfl
            · exact hgrown.outbox row hrow
      next => exact hgrown
  | claim => exact hgrown.modify _ _ _ fun _ => rfl
  | serve => exact ⟨hgrown.jobs, hgrown.legacyIds, hgrown.donations, hgrown.outbox⟩
  | heartbeat => exact hgrown.modify _ _ _ fun _ => rfl
  | complete => exact hgrown.modify _ _ _ fun _ => rfl
  | requeue => exact hgrown.modify _ _ _ fun _ => rfl
  | repend id =>
      refine ⟨hgrown.jobs, hgrown.legacyIds, hgrown.donations, ?_⟩
      intro row hrow
      simp only [Migration.execute, KeyedTable.find?_upsert]
      split_ifs
      · rfl
      · exact hgrown.outbox row hrow
  | donate donation =>
      simp only [Migration.execute]
      split
      next => exact hgrown
      next =>
        refine ⟨hgrown.jobs, hgrown.legacyIds, ?_, hgrown.outbox⟩
        intro row hrow
        simp only [KeyedTable.find?_upsert]
        split_ifs
        · rfl
        · exact hgrown.donations row hrow
  | deliver id deliveredAt =>
      refine ⟨hgrown.jobs, hgrown.legacyIds, hgrown.donations, ?_⟩
      intro row hrow
      simp only [Migration.execute, KeyedTable.find?_modify, Option.isSome_map]
      exact hgrown.outbox row hrow

theorem Grown.run (hgrown : Grown tables after) (later : String → String → Bool)
    (statements : List (Statement Weight)) :
    Grown tables (statements.foldl (Migration.execute later) after) := by
  induction statements generalizing after with
  | nil => exact hgrown
  | cons statement statements ih => exact ih (hgrown.execute later statement)

theorem Grown.uuidForLegacyId (hf : f.Lossless) (hlegacy : Convertible f legacy)
    (h : Converted f newUuid legacy {row | row ∈ legacy.jobs.rows} donated noted tables)
    (hgrown : Grown tables after) {row : LegacyJobRow Weight} (hrow : row ∈ legacy.jobs.rows) :
    Migration.uuidForLegacyId f after row.id = .ok (some (uuidOf f legacy row.id)) := by
  obtain ⟨now, hnow, hid, halias⟩ := hgrown.jobs _ ((h.jobs _).mpr ⟨row, hrow, rfl⟩)
  have halias : now.legacyId = some row.id := halias
  have hfind : (after.jobs.rows.find? fun other => other.legacyId = some row.id) = some now := by
    cases hfound : after.jobs.rows.find? fun other => other.legacyId = some row.id with
    | none =>
        have habsent := List.find?_eq_none.mp hfound now hnow
        simp [halias] at habsent
    | some other =>
        have hother : other.legacyId = some row.id := by simpa using List.find?_some hfound
        rw [hgrown.legacyIds other (List.mem_of_find?_eq_some hfound) now hnow (by simp [hother])
          (hother.trans halias.symm)]
  unfold Migration.uuidForLegacyId
  rw [hfind]
  simp only
  rw [hid, convertedJob_id hlegacy hrow, hf.uuid]

theorem Grown.convert (hf : f.Lossless) (hlegacy : Convertible f legacy)
    (h : Converted f newUuid legacy {row | row ∈ legacy.jobs.rows}
      {row | row ∈ legacy.donations.rows} {row | row ∈ legacy.outbox.rows} tables)
    (hgrown : Grown tables after) {step : ConversionStep Weight}
    (hstep : step ∈ conversionSteps legacy) : Migration.convert f newUuid after step = .ok after := by
  rcases cases_conversionSteps hstep with
    ⟨row, hrow, rfl⟩ | ⟨row, hrow, rfl⟩ | ⟨row, hrow, job, hjob, rfl⟩
  · obtain ⟨now, hnow, _, halias⟩ := hgrown.jobs _ ((h.jobs _).mpr ⟨row, hrow, rfl⟩)
    have hfound : (after.jobs.rows.any fun other => (convertedJob f newUuid row).legacyId.isSome &&
        other.legacyId = (convertedJob f newUuid row).legacyId) = true := by
      refine List.any_eq_true.mpr ⟨now, hnow, ?_⟩
      rw [halias]
      simp [convertedJob]
    simp only [Migration.convert, Migration.insertJob, hfound, if_true]
  · obtain ⟨job, hjob, hid⟩ := exists_job (hlegacy.donations row hrow)
    have huuid := hgrown.uuidForLegacyId hf hlegacy h hjob
    have hpresent : (after.donations.find? (convertedDonation f legacy row).jobId).isSome :=
      hgrown.donations _ ((h.donations _).mpr ⟨row, hrow, rfl⟩)
    rw [hid] at huuid
    simp only [Migration.convert, huuid]
    exact if_pos hpresent
  · have hin := KeyedTable.mem_of_find? hjob
    have hid := KeyedTable.key_of_find? hjob
    have huuid := hgrown.uuidForLegacyId hf hlegacy h hin
    have hpresent : (after.outbox.find? (convertedOutbox f legacy row).jobId).isSome :=
      hgrown.outbox _ ((h.outbox _).mpr ⟨row, hrow, rfl⟩)
    rw [hid] at huuid
    have hkept : Migration.insertOutbox after (outboxWith (uuidOf f legacy row.jobId) job.status row) =
        after := if_pos hpresent
    simp only [Migration.convert, huuid]
    exact congrArg Except.ok hkept

theorem grown_self {written : SqlTables Weight}
    (h : Converted f newUuid legacy copied donated noted written) : Grown written written where
  jobs := fun row hrow => ⟨row, hrow, rfl, rfl⟩
  legacyIds := by
    intro first hfirst second hsecond _ hsame
    obtain ⟨one, hone, rfl⟩ := (h.jobs first).mp hfirst
    obtain ⟨other, hother, rfl⟩ := (h.jobs second).mp hsecond
    have hid : one.id = other.id := Option.some.inj hsame
    rw [eq_of_id (h.jobs_subset one hone) (h.jobs_subset other hother) hid]
  donations := fun row hrow => by rw [KeyedTable.find?_of_mem hrow]; rfl
  outbox := fun row hrow => by rw [KeyedTable.find?_of_mem hrow]; rfl

/-- The conversion that every later start of a process repeats changes nothing,
whatever the repository has written in the meantime. -/
theorem conversion_keeps_later_changes (hf : f.Lossless) (hlegacy : Convertible f legacy)
    (hclients : tables.clients = legacy.clients) (hjobs : tables.jobs.rows = [])
    (hdonations : tables.donations.rows = []) (houtbox : tables.outbox.rows = [])
    (later : String → String → Bool) :
    ∃ written, migrateLegacyJobs f newUuid legacy tables = .ok written ∧
      ∀ (statements : List (Statement Weight)) (stop : ℕ),
        migrateLegacyUntil f newUuid legacy stop (statements.foldl (execute later) written) =
          .ok (statements.foldl (execute later) written) := by
  have hempty : Converted f newUuid legacy ∅ ∅ ∅ tables :=
    ⟨KeyedTable.holdsExactly_of_isEmpty hjobs _, KeyedTable.holdsExactly_of_isEmpty hdonations _,
      KeyedTable.holdsExactly_of_isEmpty houtbox _, hclients, by simp, by simp, by simp⟩
  obtain ⟨written, hwritten, hcomplete⟩ := hempty.migrateLegacyJobs hf hlegacy
  refine ⟨written, hwritten, ?_⟩
  intro statements stop
  have hgrown := (grown_self hcomplete).run later statements
  generalize statements.foldl (execute later) written = after at hgrown
  have hsteps : ∀ steps : List (ConversionStep Weight),
      (∀ step ∈ steps, step ∈ conversionSteps legacy) →
        steps.foldlM (convert f newUuid) after = .ok after := by
    intro steps
    induction steps with
    | nil => exact fun _ => rfl
    | cons step steps ih =>
        intro hmem
        rw [List.forall_mem_cons] at hmem
        rw [List.foldlM_cons, hgrown.convert hf hlegacy hcomplete hmem.1]
        exact ih hmem.2
  exact hsteps _ fun step hstep => List.mem_of_mem_take hstep

theorem conversion_keeps_sample :
    ∃ written, migrateLegacyJobs sampleFormats (fun _ => 0) sampleLegacy
        (SqlTables.empty : SqlTables ℕ) = .ok written ∧
      let used := [ Statement.donate ⟨uuidText 7, "validation/m31", none, 0, "v2", "today"⟩,
        .claim (uuidText 7) "today" "token" "tomorrow", .requeue (uuidText 7) ].foldl
          (execute fun first second => decide (second < first)) written
      migrateLegacyUntil sampleFormats (fun _ => 0) sampleLegacy 2 used = .ok used := by
  have hkeeps : ∃ written, migrateLegacyJobs sampleFormats (fun _ => 0) sampleLegacy
      (SqlTables.empty : SqlTables ℕ) = .ok written ∧
        ∀ (statements : List (Statement ℕ)) (stop : ℕ),
          let used := statements.foldl (execute fun first second => decide (second < first)) written
          migrateLegacyUntil sampleFormats (fun _ => 0) sampleLegacy stop used = .ok used :=
    conversion_keeps_later_changes lossless_sampleFormats convertible_sampleLegacy rfl rfl rfl rfl _
  obtain ⟨written, hwritten, hkept⟩ := hkeeps
  exact ⟨written, hwritten, hkept _ 2⟩

end SeizaServer.Migration
