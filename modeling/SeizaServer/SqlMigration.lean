import SeizaServer.StoreSnapshot

/-!
# A snapshot in the SQL tables

`SqlxStore::import` upserts every job with its outbox row, every contribution
and every client in one transaction, and `snapshot_uuid_sql` joins them again.
Both are written over the columns of the UUID schema, with its primary keys and
its unique columns.
-/

namespace SeizaServer.Migration

open KeyedLists

variable {Weight : Type}

/-! ## The UUID schema -/

/-- A row of `jobs_v2`. -/
structure SqlJobRow (Weight : Type) where
  id : String
  astrometryId : ℤ
  legacyId : Option ℤ
  owner : String
  queueWeight : Weight
  objectKey : String
  originalFilename : String
  contentType : Option String
  optionsJson : String
  status : String
  createdAt : String
  startedAt : Option String
  completedAt : Option String
  solutionJson : Option String
  error : Option String
  leaseToken : Option String
  leaseExpiresAt : Option String
  attempts : ℤ

/-- A row of `queue_outbox_v2`. -/
structure SqlOutboxRow where
  jobId : String
  deliveredAt : Option String

/-- A row of `validation_donations_v2`. -/
structure SqlDonationRow where
  jobId : String
  objectKey : String
  comment : Option String
  solveIsInvalid : ℤ
  licenseVersion : String
  donatedAt : String

structure SqlTables (Weight : Type) where
  jobs : KeyedTable (SqlJobRow Weight) String SqlJobRow.id
  outbox : KeyedTable SqlOutboxRow String SqlOutboxRow.jobId
  donations : KeyedTable SqlDonationRow String SqlDonationRow.jobId
  clients : KeyedTable StoredClient String StoredClient.owner

def toI64 (value : ℕ) (field : String) : Except String ℤ :=
  if value ≤ bigintMax then .ok value else .error s!"{field} exceeds SQL BIGINT range"

def fromI64 (value : ℤ) (field : String) : Except String ℕ :=
  if 0 ≤ value then .ok value.toNat else .error s!"SQLx {field} is negative"

def toOptionalI64 (value : Option ℕ) (field : String) : Except String (Option ℤ) :=
  match value with
  | none => .ok none
  | some number => (toI64 number field).map some

def fromOptionalI64 (value : Option ℤ) (field : String) : Except String (Option ℕ) :=
  match value with
  | none => .ok none
  | some number => (fromI64 number field).map some

/-! ## Import -/

/-- The unique columns of `jobs_v2`; a `NULL` meets nothing. -/
def SqlJobRow.collides (first second : SqlJobRow Weight) : Bool :=
  first.astrometryId = second.astrometryId || first.objectKey = second.objectKey ||
    (first.legacyId.isSome && first.legacyId = second.legacyId)

/-- `INSERT .. ON CONFLICT(id) DO UPDATE` of every column. -/
def upsertJob (tables : SqlTables Weight) (row : SqlJobRow Weight) :
    Except String (SqlTables Weight) :=
  if tables.jobs.rows.all fun other => other.id = row.id || !other.collides row then
    .ok { tables with jobs := tables.jobs.put row }
  else .error "UNIQUE constraint failed: jobs_v2"

def upsertDonation (tables : SqlTables Weight) (row : SqlDonationRow) :
    Except String (SqlTables Weight) :=
  if tables.donations.rows.all fun other =>
      other.jobId = row.jobId || other.objectKey ≠ row.objectKey then
    .ok { tables with donations := tables.donations.put row }
  else .error "UNIQUE constraint failed: validation_donations_v2"

def importSqlJob (tables : SqlTables Weight) (job : StoredJob Weight) :
    Except String (SqlTables Weight) := do
  let astrometryId ← toI64 job.astrometryId "Astrometry.net ID"
  let legacyId ← toOptionalI64 job.legacyId "legacy job ID"
  let attempts ← toI64 job.attempts "attempt count"
  let written ← upsertJob tables
    { id := uuidText job.id
      astrometryId := astrometryId
      legacyId := legacyId
      owner := job.owner
      queueWeight := job.queueWeight
      objectKey := job.objectKey
      originalFilename := job.originalFilename
      contentType := job.contentType
      optionsJson := job.optionsJson
      status := job.status
      createdAt := job.createdAt
      startedAt := job.startedAt
      completedAt := job.completedAt
      solutionJson := job.solutionJson
      error := job.error
      leaseToken := job.leaseToken
      leaseExpiresAt := job.leaseExpiresAt
      attempts := attempts }
  .ok { written with outbox := written.outbox.put ⟨uuidText job.id, job.notificationDeliveredAt⟩ }

/-- The row of a contribution. -/
def donationRow (donation : StoredDonation) : SqlDonationRow where
  jobId := uuidText donation.jobId
  objectKey := donation.objectKey
  comment := donation.comment
  solveIsInvalid := if donation.solveIsInvalid then 1 else 0
  licenseVersion := donation.licenseVersion
  donatedAt := donation.donatedAt

def importSqlDonation (tables : SqlTables Weight) (donation : StoredDonation) :
    Except String (SqlTables Weight) :=
  upsertDonation tables (donationRow donation)

def importSqlClient (tables : SqlTables Weight) (client : StoredClient) : SqlTables Weight :=
  { tables with clients := tables.clients.put client }

def importRows (s : StoreSnapshot Weight) (tables : SqlTables Weight) :
    Except String (SqlTables Weight) := do
  let withJobs ← s.jobs.foldlM importSqlJob tables
  let withDonations ← s.donations.foldlM importSqlDonation withJobs
  .ok (s.clients.foldl importSqlClient withDonations)

/-- The transaction of an import: a failed statement leaves nothing behind. -/
def sqlImport (s : StoreSnapshot Weight) (tables : SqlTables Weight) :
    SqlTables Weight × Except String Unit :=
  match importRows s tables with
  | .ok written => (written, .ok ())
  | .error message => (tables, .error message)

/-! ## Snapshots -/

section Snapshot

variable (f : Formats Weight)

def parseStoredUuid (text field : String) : Except String JobId :=
  match f.parseUuid text with
  | some id => .ok id
  | none => .error s!"{field} is not a UUID"

/-- A row of the join of `jobs_v2` with `queue_outbox_v2`. -/
def jobFromRow (tables : SqlTables Weight) (row : SqlJobRow Weight) :
    Except String (StoredJob Weight) := do
  let id ← parseStoredUuid f row.id "SQLx job ID"
  match tables.outbox.find? row.id with
  | none => .error s!"SQLx job {uuidText id} has no queue_outbox_v2 record"
  | some outbox => do
      let astrometryId ← fromI64 row.astrometryId "Astrometry.net ID"
      let legacyId ← fromOptionalI64 row.legacyId "legacy job ID"
      let attempts ← fromI64 row.attempts "attempt count"
      .ok
        { id := id
          astrometryId := astrometryId
          legacyId := legacyId
          owner := row.owner
          queueWeight := row.queueWeight
          objectKey := row.objectKey
          originalFilename := row.originalFilename
          contentType := row.contentType
          optionsJson := row.optionsJson
          status := row.status
          createdAt := row.createdAt
          startedAt := row.startedAt
          completedAt := row.completedAt
          solutionJson := row.solutionJson
          error := row.error
          leaseToken := row.leaseToken
          leaseExpiresAt := row.leaseExpiresAt
          attempts := attempts
          notificationDeliveredAt := outbox.deliveredAt }

def donationFromRow (row : SqlDonationRow) : Except String StoredDonation := do
  let jobId ← parseStoredUuid f row.jobId "validation contribution job ID"
  .ok
    { jobId := jobId
      objectKey := row.objectKey
      comment := row.comment
      solveIsInvalid := row.solveIsInvalid ≠ 0
      licenseVersion := row.licenseVersion
      donatedAt := row.donatedAt }

def ensureNoOrphanOutbox (tables : SqlTables Weight) : Except String Unit :=
  let count := tables.outbox.rows.countP fun row => (tables.jobs.find? row.jobId).isNone
  ensure (count = 0) s!"SQLx store contains {count} orphaned queue_outbox_v2 records"

def snapshotUuidSql (tables : SqlTables Weight) : Except String (StoreSnapshot Weight) := do
  let jobs ← (sortByKey SqlJobRow.id tables.jobs.rows).mapM (jobFromRow f tables)
  ensureNoOrphanOutbox tables
  let donations ← (sortByKey SqlDonationRow.jobId tables.donations.rows).mapM (donationFromRow f)
  .ok (.new jobs donations (sortByKey StoredClient.owner tables.clients.rows))

end Snapshot

/-! ## Rows of a source -/

/-- The row of a job. -/
def jobRow (job : StoredJob Weight) : SqlJobRow Weight where
  id := uuidText job.id
  astrometryId := job.astrometryId
  legacyId := job.legacyId.map (↑)
  owner := job.owner
  queueWeight := job.queueWeight
  objectKey := job.objectKey
  originalFilename := job.originalFilename
  contentType := job.contentType
  optionsJson := job.optionsJson
  status := job.status
  createdAt := job.createdAt
  startedAt := job.startedAt
  completedAt := job.completedAt
  solutionJson := job.solutionJson
  error := job.error
  leaseToken := job.leaseToken
  leaseExpiresAt := job.leaseExpiresAt
  attempts := job.attempts

def outboxRow (job : StoredJob Weight) : SqlOutboxRow :=
  ⟨uuidText job.id, job.notificationDeliveredAt⟩

variable {f : Formats Weight} {s : StoreSnapshot Weight}

theorem toI64_eq_ok {value : ℕ} (hvalue : value ≤ bigintMax) (field : String) :
    toI64 value field = .ok (value : ℤ) :=
  if_pos hvalue

theorem fromI64_natCast (value : ℕ) (field : String) : fromI64 (value : ℤ) field = .ok value := by
  simp [fromI64]

theorem toOptionalI64_eq_ok {value : Option ℕ}
    (hvalue : ∀ number, value = some number → number ≤ bigintMax) (field : String) :
    toOptionalI64 value field = .ok (value.map (↑)) := by
  cases value with
  | none => rfl
  | some number => simp [toOptionalI64, toI64_eq_ok (hvalue number rfl), Except.map]

theorem fromOptionalI64_natCast (value : Option ℕ) (field : String) :
    fromOptionalI64 (value.map (↑)) field = .ok value := by
  cases value with
  | none => rfl
  | some number => simp [fromOptionalI64, fromI64_natCast, Except.map]

theorem importSqlJob_eq {job : StoredJob Weight} (hwell : job.WellFormed f)
    (tables : SqlTables Weight) :
    importSqlJob tables job = (upsertJob tables (jobRow job)).map fun written =>
      { written with outbox := written.outbox.put (outboxRow job) } := by
  unfold importSqlJob
  rw [toI64_eq_ok hwell.astrometryId_le, toOptionalI64_eq_ok hwell.legacyId_le,
    toI64_eq_ok hwell.attempts_le]
  simp only [bind, Except.bind, jobRow, outboxRow]
  generalize upsertJob tables _ = result
  cases result <;> rfl

/-- Rows of jobs that are apart meet in no unique column. -/
theorem not_collides {first second : StoredJob Weight} (hapart : first.Apart second) :
    (jobRow first).collides (jobRow second) = false := by
  have hastrometry : (jobRow first).astrometryId ≠ (jobRow second).astrometryId := fun h =>
    hapart.astrometryId (Int.ofNat_injective h).symm
  have hobject : (jobRow first).objectKey ≠ (jobRow second).objectKey := hapart.objectKey.symm
  have hlegacy : (jobRow first).legacyId.isSome = true →
      (jobRow first).legacyId ≠ (jobRow second).legacyId := by
    intro hsome heq
    have hsame : first.legacyId = second.legacyId :=
      Option.map_injective Int.ofNat_injective heq
    obtain ⟨legacyId, hfirst⟩ : ∃ legacyId, first.legacyId = some legacyId := by
      simpa [jobRow, Option.isSome_iff_exists] using hsome
    exact hapart.legacyId legacyId (hsame ▸ hfirst) hfirst
  unfold SqlJobRow.collides
  simp only [hastrometry, hobject, decide_false, Bool.or_self, Bool.false_or,
    Bool.and_eq_false_imp, decide_eq_false_iff_not]
  exact hlegacy

/-! ## Partly written tables -/

/-- The tables hold exactly the rows of some of a source's records. -/
structure SqlHolds (arrived : Set (StoredJob Weight)) (donated : Set StoredDonation)
    (served : Set StoredClient) (tables : SqlTables Weight) : Prop where
  jobs : tables.jobs.HoldsExactly jobRow arrived
  outbox : tables.outbox.HoldsExactly outboxRow arrived
  donations : tables.donations.HoldsExactly donationRow donated
  clients : tables.clients.HoldsExactly id served

variable {arrived : Set (StoredJob Weight)} {donated : Set StoredDonation}
  {served : Set StoredClient} {tables : SqlTables Weight}

theorem SqlHolds.importJob (hvalid : s.Valid f)
    (hholds : SqlHolds arrived donated served tables) (harrived : ∀ job ∈ arrived, job ∈ s.jobs)
    {job : StoredJob Weight} (hjob : job ∈ s.jobs) :
    ∃ written, importSqlJob tables job = .ok written ∧
      SqlHolds (insert job arrived) donated served written := by
  have hsame : ∀ other ∈ arrived, uuidText other.id = uuidText job.id → other = job := by
    intro other hother htext
    exact List.inj_on_of_nodup_map hvalid.nodup_ids (harrived other hother) hjob
      (Images.uuidText_injective htext)
  have hunique : tables.jobs.rows.all
      (fun other => other.id = (jobRow job).id || !other.collides (jobRow job)) = true := by
    rw [List.all_eq_true]
    intro row hrow
    obtain ⟨other, hother, rfl⟩ := (hholds.jobs row).mp hrow
    by_cases heq : other = job
    · simp [heq]
    · simp [not_collides (hvalid.apart_of_ne (harrived other hother) hjob heq)]
  have hupsert : upsertJob tables (jobRow job) =
      .ok { tables with jobs := tables.jobs.put (jobRow job) } := if_pos hunique
  refine ⟨_, by rw [importSqlJob_eq (hvalid.wellFormed job hjob), hupsert]; rfl, ?_⟩
  exact ⟨hholds.jobs.put hsame, hholds.outbox.put hsame, hholds.donations, hholds.clients⟩

theorem SqlHolds.importDonation (hvalid : s.Valid f)
    (hholds : SqlHolds arrived donated served tables)
    (hdonated : ∀ donation ∈ donated, donation ∈ s.donations) {donation : StoredDonation}
    (hdonation : donation ∈ s.donations) :
    ∃ written, importSqlDonation tables donation = .ok written ∧
      SqlHolds arrived (insert donation donated) served written := by
  have hsame : ∀ other ∈ donated, uuidText other.jobId = uuidText donation.jobId →
      other = donation := by
    intro other hother htext
    exact List.inj_on_of_nodup_map hvalid.nodup_donations (hdonated other hother) hdonation
      (Images.uuidText_injective htext)
  have hunique : tables.donations.rows.all (fun other =>
      other.jobId = (donationRow donation).jobId ||
        other.objectKey ≠ (donationRow donation).objectKey) = true := by
    rw [List.all_eq_true]
    intro row hrow
    obtain ⟨other, hother, rfl⟩ := (hholds.donations row).mp hrow
    by_cases heq : other = donation
    · simp [heq]
    · have hapart := hvalid.donations_apart_of_ne (hdonated other hother) hdonation heq
      simp [donationRow, hapart.symm]
  have hupsert : importSqlDonation tables donation =
      .ok { tables with donations := tables.donations.put (donationRow donation) } :=
    if_pos hunique
  exact ⟨_, hupsert, hholds.jobs, hholds.outbox, hholds.donations.put hsame, hholds.clients⟩

theorem SqlHolds.importClient (hvalid : s.Valid f)
    (hholds : SqlHolds arrived donated served tables)
    (hserved : ∀ client ∈ served, client ∈ s.clients) {client : StoredClient}
    (hclient : client ∈ s.clients) :
    SqlHolds arrived donated (insert client served) (importSqlClient tables client) := by
  refine ⟨hholds.jobs, hholds.outbox, hholds.donations, hholds.clients.put ?_⟩
  intro other hother howner
  exact List.inj_on_of_nodup_map hvalid.nodup_owners (hserved other hother) hclient howner

theorem SqlHolds.importJobs (hvalid : s.Valid f)
    {jobs : List (StoredJob Weight)} (hjobs : ∀ job ∈ jobs, job ∈ s.jobs)
    (hholds : SqlHolds arrived donated served tables) (harrived : ∀ job ∈ arrived, job ∈ s.jobs) :
    ∃ written, jobs.foldlM importSqlJob tables = .ok written ∧
      SqlHolds (arrived ∪ {job | job ∈ jobs}) donated served written := by
  induction jobs generalizing arrived tables with
  | nil => exact ⟨tables, rfl, by simpa using hholds⟩
  | cons job jobs ih =>
      rw [List.forall_mem_cons] at hjobs
      obtain ⟨middle, hmiddle, hholds⟩ := hholds.importJob hvalid harrived hjobs.1
      obtain ⟨written, hwritten, hheld⟩ := ih hjobs.2 hholds (by
        rintro other (rfl | hother)
        · exact hjobs.1
        · exact harrived other hother)
      refine ⟨written, ?_, ?_⟩
      · rw [List.foldlM_cons, hmiddle]
        exact hwritten
      · rwa [KeyedLists.insert_union_listed] at hheld

theorem SqlHolds.importDonations (hvalid : s.Valid f)
    {donations : List StoredDonation} (hdonations : ∀ donation ∈ donations, donation ∈ s.donations)
    (hholds : SqlHolds arrived donated served tables)
    (hdonated : ∀ donation ∈ donated, donation ∈ s.donations) :
    ∃ written, donations.foldlM importSqlDonation tables = .ok written ∧
      SqlHolds arrived (donated ∪ {donation | donation ∈ donations}) served written := by
  induction donations generalizing donated tables with
  | nil => exact ⟨tables, rfl, by simpa using hholds⟩
  | cons donation donations ih =>
      rw [List.forall_mem_cons] at hdonations
      obtain ⟨middle, hmiddle, hholds⟩ := hholds.importDonation hvalid hdonated hdonations.1
      obtain ⟨written, hwritten, hheld⟩ := ih hdonations.2 hholds (by
        rintro other (rfl | hother)
        · exact hdonations.1
        · exact hdonated other hother)
      refine ⟨written, ?_, ?_⟩
      · rw [List.foldlM_cons, hmiddle]
        exact hwritten
      · rwa [KeyedLists.insert_union_listed] at hheld

theorem SqlHolds.importClients (hvalid : s.Valid f) {clients : List StoredClient}
    (hclients : ∀ client ∈ clients, client ∈ s.clients)
    (hholds : SqlHolds arrived donated served tables)
    (hserved : ∀ client ∈ served, client ∈ s.clients) :
    SqlHolds arrived donated (served ∪ {client | client ∈ clients})
      (clients.foldl importSqlClient tables) := by
  induction clients generalizing served tables with
  | nil => simpa using hholds
  | cons client clients ih =>
      rw [List.forall_mem_cons] at hclients
      have hheld := ih hclients.2 (hholds.importClient hvalid hserved hclients.1) (by
        rintro other (rfl | hother)
        · exact hclients.1
        · exact hserved other hother)
      rwa [KeyedLists.insert_union_listed] at hheld

/-- The tables of a completed import. -/
def SqlCopy (s : StoreSnapshot Weight) (tables : SqlTables Weight) : Prop :=
  SqlHolds {job | job ∈ s.jobs} {donation | donation ∈ s.donations}
    {client | client ∈ s.clients} tables

/-- Whatever part of the source the tables hold, an import completes them. -/
theorem SqlHolds.imported (hvalid : s.Valid f)
    (hholds : SqlHolds arrived donated served tables) (harrived : ∀ job ∈ arrived, job ∈ s.jobs)
    (hdonated : ∀ donation ∈ donated, donation ∈ s.donations)
    (hserved : ∀ client ∈ served, client ∈ s.clients) :
    ∃ written, sqlImport s tables = (written, .ok ()) ∧ SqlCopy s written := by
  obtain ⟨withJobs, hjobs, hholds⟩ := hholds.importJobs hvalid (fun _ h => h) harrived
  obtain ⟨withDonations, hdonations, hholds⟩ :=
    hholds.importDonations hvalid (fun _ h => h) hdonated
  have hheld := hholds.importClients hvalid (fun _ h => h) hserved
  refine ⟨s.clients.foldl importSqlClient withDonations, ?_, ?_⟩
  · have hrows : importRows s tables = .ok (s.clients.foldl importSqlClient withDonations) := by
      unfold importRows
      simp [hjobs, hdonations, bind, Except.bind]
    unfold sqlImport
    rw [hrows]
  · have hjobs : arrived ∪ {job | job ∈ s.jobs} = {job | job ∈ s.jobs} :=
      Set.union_eq_self_of_subset_left harrived
    have hdonations : donated ∪ {donation | donation ∈ s.donations} =
        {donation | donation ∈ s.donations} := Set.union_eq_self_of_subset_left hdonated
    have hclients : served ∪ {client | client ∈ s.clients} = {client | client ∈ s.clients} :=
      Set.union_eq_self_of_subset_left hserved
    rwa [hjobs, hdonations, hclients] at hheld

/-! ## Reading the tables of a completed import -/

theorem jobFromRow_jobRow (hf : f.Lossless) {job : StoredJob Weight}
    (houtbox : tables.outbox.find? (uuidText job.id) = some (outboxRow job)) :
    jobFromRow f tables (jobRow job) = .ok job := by
  unfold jobFromRow parseStoredUuid
  simp only [jobRow, hf.uuid, bind, Except.bind, houtbox, fromI64_natCast, fromOptionalI64_natCast]
  rfl

theorem donationFromRow_donationRow (hf : f.Lossless) (donation : StoredDonation) :
    donationFromRow f (donationRow donation) = .ok donation := by
  unfold donationFromRow parseStoredUuid
  cases donation with
  | mk jobId objectKey comment solveIsInvalid licenseVersion donatedAt =>
      cases solveIsInvalid <;> simp [donationRow, hf.uuid, bind, Except.bind]

@[simp] theorem id_jobRow (job : StoredJob Weight) : (jobRow job).id = uuidText job.id := rfl

@[simp] theorem jobId_outboxRow (job : StoredJob Weight) :
    (outboxRow job).jobId = uuidText job.id := rfl

theorem SqlCopy.find_outbox (hcopy : SqlCopy s tables) {job : StoredJob Weight}
    (hjob : job ∈ s.jobs) : tables.outbox.find? (uuidText job.id) = some (outboxRow job) := by
  have hmem : outboxRow job ∈ tables.outbox.rows := (hcopy.outbox _).mpr ⟨job, hjob, rfl⟩
  have hfound := KeyedTable.find?_of_mem hmem
  rwa [jobId_outboxRow] at hfound

theorem SqlCopy.find_job (hcopy : SqlCopy s tables) {job : StoredJob Weight}
    (hjob : job ∈ s.jobs) : tables.jobs.find? (uuidText job.id) = some (jobRow job) := by
  have hmem : jobRow job ∈ tables.jobs.rows := (hcopy.jobs _).mpr ⟨job, hjob, rfl⟩
  have hfound := KeyedTable.find?_of_mem hmem
  rwa [id_jobRow] at hfound

theorem SqlCopy.ensureNoOrphanOutbox (hcopy : SqlCopy s tables) :
    Migration.ensureNoOrphanOutbox tables = .ok () := by
  have hnone : tables.outbox.rows.countP (fun row => (tables.jobs.find? row.jobId).isNone) = 0 := by
    rw [List.countP_eq_zero]
    intro row hrow
    obtain ⟨job, hjob, rfl⟩ := (hcopy.outbox row).mp hrow
    rw [jobId_outboxRow, hcopy.find_job hjob]
    simp
  simp [Migration.ensureNoOrphanOutbox, hnone]

theorem nodup_uuidTexts {α : Type} {idOf : α → JobId} {rows : List α}
    (hids : (rows.map idOf).Nodup) : (rows.map fun row => uuidText (idOf row)).Nodup := by
  have htexts := hids.map Images.uuidText_injective
  rwa [List.map_map] at htexts

/-- The snapshot of the tables of a completed import is the source. -/
theorem SqlCopy.snapshot (hf : f.Lossless) (hvalid : s.Valid f) (hsorted : s.Sorted)
    (hcopy : SqlCopy s tables) : snapshotUuidSql f tables = .ok s := by
  have hjobRows : (sortByKey SqlJobRow.id tables.jobs.rows).Perm (s.jobs.map jobRow) :=
    (sortByKey_perm _ _).trans (hcopy.jobs.perm (nodup_uuidTexts hvalid.nodup_ids))
  have hdonationRows : (sortByKey SqlDonationRow.jobId tables.donations.rows).Perm
      (s.donations.map donationRow) :=
    (sortByKey_perm _ _).trans (hcopy.donations.perm (nodup_uuidTexts hvalid.nodup_donations))
  have hclientRows : (sortByKey StoredClient.owner tables.clients.rows).Perm s.clients := by
    have hperm := (sortByKey_perm StoredClient.owner tables.clients.rows).trans
      (hcopy.clients.perm hvalid.nodup_owners)
    rwa [List.map_id] at hperm
  obtain ⟨jobs, hjobs, hsameJobs⟩ := exists_mapM_perm (jobFromRow f tables) hjobRows
    fun job hjob => jobFromRow_jobRow hf (hcopy.find_outbox hjob)
  obtain ⟨donations, hdonations, hsameDonations⟩ := exists_mapM_perm (donationFromRow f)
    hdonationRows fun donation _ => donationFromRow_donationRow hf donation
  unfold snapshotUuidSql
  simp only [hjobs, hdonations, hcopy.ensureNoOrphanOutbox, bind, Except.bind]
  rw [new_eq_of_perm hvalid hsorted hsameJobs hsameDonations hclientRows]

/-! ## Empty destinations -/

theorem eq_nil_of_mapM_nil {α β : Type} {read : α → Except String β} {rows : List α}
    (hread : rows.mapM read = .ok []) : rows = [] := by
  have hrows := mapM_of_eq_ok hread
  cases hrows
  rfl

theorem sqlHolds_of_isEmpty {d : StoreSnapshot Weight}
    (hsnapshot : snapshotUuidSql f tables = .ok d) (hempty : d.isEmpty = true) :
    SqlHolds ∅ ∅ ∅ tables := by
  unfold snapshotUuidSql at hsnapshot
  obtain ⟨jobs, hjobs, hsnapshot⟩ := bind_eq_ok.mp hsnapshot
  obtain ⟨_, horphans, hsnapshot⟩ := bind_eq_ok.mp hsnapshot
  obtain ⟨donations, hdonations, hsnapshot⟩ := bind_eq_ok.mp hsnapshot
  cases hsnapshot
  simp only [StoreSnapshot.isEmpty, StoreSnapshot.new, Bool.and_eq_true] at hempty
  rw [eq_nil_of_sortByKey hempty.1.1] at hjobs
  rw [eq_nil_of_sortByKey hempty.1.2] at hdonations
  have hjobRows : tables.jobs.rows = [] :=
    eq_nil_of_sortByKey (List.isEmpty_iff.mpr (eq_nil_of_mapM_nil hjobs))
  have hdonationRows : tables.donations.rows = [] :=
    eq_nil_of_sortByKey (List.isEmpty_iff.mpr (eq_nil_of_mapM_nil hdonations))
  have hclientRows : tables.clients.rows = [] := by
    have hsorted := eq_nil_of_sortByKey hempty.2
    exact eq_nil_of_sortByKey (List.isEmpty_iff.mpr hsorted)
  have houtboxRows : tables.outbox.rows = [] := by
    unfold ensureNoOrphanOutbox at horphans
    simp only [ensure_eq_ok, decide_eq_true_eq, List.countP_eq_zero] at horphans
    rw [List.eq_nil_iff_forall_not_mem]
    intro row hrow
    apply horphans row hrow
    simp [KeyedTable.find?, hjobRows]
  exact ⟨KeyedTable.holdsExactly_of_isEmpty hjobRows _,
    KeyedTable.holdsExactly_of_isEmpty houtboxRows _,
    KeyedTable.holdsExactly_of_isEmpty hdonationRows _,
    KeyedTable.holdsExactly_of_isEmpty hclientRows _⟩

def SqlTables.empty : SqlTables Weight := ⟨.empty, .empty, .empty, .empty⟩

/-- The tables of the sample snapshot. -/
def sampleTables : SqlTables ℕ := (sqlImport sampleSnapshot .empty).1

theorem sqlCopy_sampleTables : SqlCopy sampleSnapshot sampleTables := by
  have hempty : SqlHolds ∅ ∅ ∅ (SqlTables.empty : SqlTables ℕ) :=
    ⟨KeyedTable.holdsExactly_of_isEmpty rfl _, KeyedTable.holdsExactly_of_isEmpty rfl _,
      KeyedTable.holdsExactly_of_isEmpty rfl _, KeyedTable.holdsExactly_of_isEmpty rfl _⟩
  obtain ⟨written, hwritten, hcopy⟩ :=
    hempty.imported valid_sampleSnapshot (by simp) (by simp) (by simp)
  unfold sampleTables
  rw [hwritten]
  exact hcopy

theorem snapshot_sampleTables : snapshotUuidSql sampleFormats sampleTables = .ok sampleSnapshot :=
  sqlCopy_sampleTables.snapshot lossless_sampleFormats valid_sampleSnapshot sorted_sampleSnapshot

theorem snapshot_empty (f : Formats Weight) :
    snapshotUuidSql f .empty = .ok (.new [] [] []) := by
  simp [snapshotUuidSql, SqlTables.empty, KeyedTable.empty, sortByKey, ensureNoOrphanOutbox,
    ensure, bind, Except.bind, pure, Except.pure]

end SeizaServer.Migration
