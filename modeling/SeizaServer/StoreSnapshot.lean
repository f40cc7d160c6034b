import SeizaServer.JobModel
import SeizaServer.KeyedLists
import SeizaServer.ObjectKeys
import Mathlib.Data.String.Basic

/-!
# The snapshot of a job store

What `migrate-store` reads from one job store and writes to the other: the
jobs, the validation contributions and the fairness records of the clients,
each with its columns as the stores keep them.  `validate` guards every
snapshot, and `ensureSubsetOf` decides whether a destination may be resumed.
-/

namespace SeizaServer

def JobStatus.asStr : JobStatus → String
  | .queued => "queued"
  | .solving => "solving"
  | .succeeded => "succeeded"
  | .failed => "failed"

def JobStatus.parse (value : String) : Except String JobStatus :=
  match value with
  | "queued" => .ok .queued
  | "solving" => .ok .solving
  | "succeeded" => .ok .succeeded
  | "failed" => .ok .failed
  | _ => .error s!"unknown job status `{value}`"

namespace Migration

open KeyedLists

variable {Weight : Type}

/-- The readers of text that the stores share: RFC 3339 times, JSON, UUIDs, and
the decimal text of a queue weight. -/
structure Formats (Weight : Type) where
  parseTime : String → Except String Time
  isJson : String → Bool
  parseUuid : String → Option JobId
  isFinite : Weight → Bool
  displayWeight : Weight → String
  parseWeight : String → Except String Weight

/-- Displayed UUIDs and displayed finite weights are read back. -/
structure Formats.Lossless (f : Formats Weight) : Prop where
  uuid : ∀ id, f.parseUuid (uuidText id) = some id
  weight : ∀ weight, f.isFinite weight = true → f.parseWeight (f.displayWeight weight) = .ok weight

/-- A finite weight equals itself. -/
def Formats.Reflexive [BEq Weight] (f : Formats Weight) : Prop :=
  ∀ weight, f.isFinite weight = true → (weight == weight) = true

structure StoredJob (Weight : Type) where
  id : JobId
  astrometryId : ℕ
  legacyId : Option ℕ
  owner : String
  queueWeight : Weight
  objectKey : String
  originalFilename : String
  contentType : Option String
  optionsJson : String
  status : String
  createdAt : String
  startedAt : Option String
  completedAt : Option String
  solutionJson : Option String
  error : Option String
  leaseToken : Option String
  leaseExpiresAt : Option String
  attempts : ℕ
  notificationDeliveredAt : Option String
  deriving DecidableEq

structure StoredClient where
  owner : String
  lastServedAt : String
  deriving DecidableEq

structure StoredDonation where
  jobId : JobId
  objectKey : String
  comment : Option String
  solveIsInvalid : Bool
  licenseVersion : String
  donatedAt : String
  deriving DecidableEq

structure StoreSnapshot (Weight : Type) where
  jobs : List (StoredJob Weight)
  donations : List StoredDonation
  clients : List StoredClient

/-- The job without the one field that is not compared as a bit pattern. -/
def StoredJob.unweighted (job : StoredJob Weight) : StoredJob Unit :=
  { job with queueWeight := () }

/-- `PartialEq` of the jobs: two queue weights are compared as `f64`s are. -/
instance [BEq Weight] : BEq (StoredJob Weight) where
  beq first second :=
    first.queueWeight == second.queueWeight && decide (first.unweighted = second.unweighted)

instance [BEq Weight] : BEq (StoreSnapshot Weight) where
  beq first second :=
    first.jobs == second.jobs && decide (first.donations = second.donations) &&
      decide (first.clients = second.clients)

/-- The place of a UUID in the order of its bytes. -/
def StoredJob.rank (job : StoredJob Weight) : ℕ := job.id.toNat

def StoredDonation.rank (donation : StoredDonation) : ℕ := donation.jobId.toNat

def StoreSnapshot.new (jobs : List (StoredJob Weight)) (donations : List StoredDonation)
    (clients : List StoredClient) : StoreSnapshot Weight where
  jobs := sortByKey StoredJob.rank jobs
  donations := sortByKey StoredDonation.rank donations
  clients := sortByKey StoredClient.owner clients

def StoreSnapshot.isEmpty (s : StoreSnapshot Weight) : Bool :=
  s.jobs.isEmpty && s.donations.isEmpty && s.clients.isEmpty

/-! ## Validation -/

/-- `i64::MAX`, the largest value of a SQL `BIGINT`. -/
def bigintMax : ℕ := 2 ^ 63 - 1

section Validation

variable (f : Formats Weight)

/-- `parse_time(value).with_context(..)`, whose time nobody reads. -/
def checkParsed (value message : String) : Except String Unit :=
  match f.parseTime value with
  | .ok _ => .ok ()
  | .error _ => .error message

def checkTime (id : JobId) : String × Option String → Except String Unit
  | (_, none) => .ok ()
  | (name, some value) => checkParsed f value s!"job {uuidText id} has invalid {name}"

def StoredJob.times (job : StoredJob Weight) : List (String × Option String) :=
  [("created_at", some job.createdAt), ("started_at", job.startedAt),
    ("completed_at", job.completedAt), ("lease_expires_at", job.leaseExpiresAt),
    ("notification_delivered_at", job.notificationDeliveredAt)]

def checkLegacyId (seen : List (StoredJob Weight)) : Option ℕ → Except String Unit
  | none => .ok ()
  | some legacyId => do
      ensure (legacyId ≤ bigintMax) s!"legacy ID {legacyId} exceeds SQL BIGINT range"
      ensure (legacyId ∉ seen.filterMap (·.legacyId))
        s!"store contains duplicate legacy job ID {legacyId}"

def checkSolution (id : JobId) : Option String → Except String Unit
  | none => .ok ()
  | some solution => ensure (f.isJson solution) s!"job {uuidText id} has invalid solution JSON"

/-- The checks on one job; the sets of values seen so far are those of the jobs
before it. -/
def validateJob (seen : List (StoredJob Weight)) (job : StoredJob Weight) :
    Except String Unit := do
  ensure (job.id ∉ seen.map (·.id)) s!"store contains duplicate job ID {uuidText job.id}"
  ensure (job.astrometryId ∉ seen.map (·.astrometryId))
    s!"store contains duplicate Astrometry.net ID {job.astrometryId}"
  ensure (job.astrometryId ≠ 0 && decide (job.astrometryId ≤ bigintMax))
    s!"job {uuidText job.id} has an invalid Astrometry.net ID"
  checkLegacyId seen job.legacyId
  ensure (job.objectKey ∉ seen.map (·.objectKey))
    s!"store contains duplicate object key {job.objectKey}"
  ensure (job.attempts ≤ bigintMax)
    s!"attempt count for job {uuidText job.id} exceeds SQL BIGINT range"
  ensure (f.isFinite job.queueWeight) s!"job {uuidText job.id} has a non-finite queue weight"
  (JobStatus.parse job.status).map fun _ => ()
  ensure (f.isJson job.optionsJson) s!"job {uuidText job.id} has invalid options JSON"
  checkSolution f job.id job.solutionJson
  job.times.forM (checkTime f job.id)

def validateDonation (ids : List JobId) (seen : List StoredDonation) (donation : StoredDonation) :
    Except String Unit := do
  ensure (donation.jobId ∈ ids)
    s!"validation contribution references missing job {uuidText donation.jobId}"
  ensure (donation.jobId ∉ seen.map (·.jobId))
    s!"store contains duplicate validation contributions for job {uuidText donation.jobId}"
  ensure (donation.objectKey ∉ seen.map (·.objectKey))
    s!"store contains duplicate validation object key {donation.objectKey}"
  checkParsed f donation.donatedAt
    s!"validation contribution for job {uuidText donation.jobId} has invalid donated_at"

def validateClient (seen : List StoredClient) (client : StoredClient) : Except String Unit := do
  ensure (client.owner ∉ seen.map (·.owner)) s!"store contains duplicate client {client.owner}"
  checkParsed f client.lastServedAt s!"client {client.owner} has invalid last_served_at"

def StoreSnapshot.validate (s : StoreSnapshot Weight) : Except String Unit := do
  checkEach (validateJob f) [] s.jobs
  checkEach (validateDonation f (s.jobs.map (·.id))) [] s.donations
  checkEach (validateClient f) [] s.clients

end Validation

/-! ### What a validated snapshot satisfies -/

/-- The text is a time. -/
def Formats.IsTime (f : Formats Weight) (value : String) : Prop :=
  ∃ time, f.parseTime value = .ok time

structure StoredJob.WellFormed (f : Formats Weight) (job : StoredJob Weight) :
    Prop where
  astrometryId_ne_zero : job.astrometryId ≠ 0
  astrometryId_le : job.astrometryId ≤ bigintMax
  legacyId_le : ∀ legacyId, job.legacyId = some legacyId → legacyId ≤ bigintMax
  attempts_le : job.attempts ≤ bigintMax
  finite : f.isFinite job.queueWeight = true
  status : ∃ status, JobStatus.parse job.status = .ok status
  options : f.isJson job.optionsJson = true
  solution : ∀ solution, job.solutionJson = some solution → f.isJson solution = true
  times : ∀ entry ∈ job.times, ∀ value, entry.2 = some value → f.IsTime value

/-- Two jobs that one store can hold. -/
structure StoredJob.Apart (first second : StoredJob Weight) : Prop where
  id : second.id ≠ first.id
  astrometryId : second.astrometryId ≠ first.astrometryId
  legacyId : ∀ legacyId, second.legacyId = some legacyId → first.legacyId ≠ some legacyId
  objectKey : second.objectKey ≠ first.objectKey

structure StoreSnapshot.Valid (f : Formats Weight) (s : StoreSnapshot Weight) :
    Prop where
  wellFormed : ∀ job ∈ s.jobs, job.WellFormed f
  apart : s.jobs.Pairwise StoredJob.Apart
  donated : ∀ donation ∈ s.donations, donation.jobId ∈ s.jobs.map (·.id) ∧ f.IsTime donation.donatedAt
  donationsApart : s.donations.Pairwise fun first second =>
    second.jobId ≠ first.jobId ∧ second.objectKey ≠ first.objectKey
  served : ∀ client ∈ s.clients, f.IsTime client.lastServedAt
  clientsApart : s.clients.Pairwise fun first second => second.owner ≠ first.owner

variable {f : Formats Weight}

theorem checkParsed_eq_ok {value message : String} :
    checkParsed f value message = .ok () ↔ f.IsTime value := by
  unfold checkParsed Formats.IsTime
  cases f.parseTime value with
  | ok time => simp
  | error message => simp

theorem checkTime_eq_ok {id : JobId} {entry : String × Option String} :
    checkTime f id entry = .ok () ↔ ∀ value, entry.2 = some value → f.IsTime value := by
  obtain ⟨name, value⟩ := entry
  cases value with
  | none => simp [checkTime]
  | some value => simp [checkTime, checkParsed_eq_ok]

theorem checkLegacyId_eq_ok {seen : List (StoredJob Weight)} {legacyId : Option ℕ} :
    checkLegacyId seen legacyId = .ok () ↔
      (∀ value, legacyId = some value → value ≤ bigintMax) ∧
        ∀ other ∈ seen, ∀ value, legacyId = some value → other.legacyId ≠ some value := by
  cases legacyId with
  | none => simp [checkLegacyId]
  | some legacyId =>
      unfold checkLegacyId
      rw [check_bind_eq_ok, ensure_eq_ok, ensure_eq_ok]
      simp

theorem checkSolution_eq_ok {id : JobId} {solution : Option String} :
    checkSolution f id solution = .ok () ↔ ∀ value, solution = some value → f.isJson value = true := by
  cases solution with
  | none => simp [checkSolution]
  | some solution => simp [checkSolution]

theorem parsedStatus_eq_ok {value : String} :
    ((JobStatus.parse value).map fun _ => ()) = .ok () ↔
      ∃ status, JobStatus.parse value = .ok status := by
  cases JobStatus.parse value with
  | ok status => simp [Except.map]
  | error message => simp [Except.map]

theorem validateJob_eq_ok (seen : List (StoredJob Weight)) (job : StoredJob Weight) :
    validateJob f seen job = .ok () ↔
      job.WellFormed f ∧ ∀ other ∈ seen, other.Apart job := by
  unfold validateJob
  simp only [check_bind_eq_ok, ensure_eq_ok, checkLegacyId_eq_ok, parsedStatus_eq_ok,
    checkSolution_eq_ok, forM_eq_ok, checkTime_eq_ok, decide_eq_true_eq, Bool.and_eq_true,
    ne_eq, List.mem_map, not_exists, not_and]
  constructor
  · rintro ⟨hid, hastrometry, ⟨hzero, hbound⟩, ⟨hlegacy, hlegacies⟩, hobject, hattempts, hfinite,
      hstatus, hoptions, hsolution, htimes⟩
    refine ⟨⟨hzero, hbound, hlegacy, hattempts, hfinite, hstatus, hoptions, hsolution, htimes⟩, ?_⟩
    intro other hother
    exact ⟨fun h => hid other hother h.symm, fun h => hastrometry other hother h.symm,
      hlegacies other hother, fun h => hobject other hother h.symm⟩
  · rintro ⟨hwell, hapart⟩
    exact ⟨fun other hother h => (hapart other hother).id h.symm,
      fun other hother h => (hapart other hother).astrometryId h.symm,
      ⟨hwell.astrometryId_ne_zero, hwell.astrometryId_le⟩,
      ⟨hwell.legacyId_le, fun other hother => (hapart other hother).legacyId⟩,
      fun other hother h => (hapart other hother).objectKey h.symm,
      hwell.attempts_le, hwell.finite, hwell.status, hwell.options, hwell.solution, hwell.times⟩

theorem validateDonation_eq_ok {ids : List JobId} (seen : List StoredDonation)
    (donation : StoredDonation) :
    validateDonation f ids seen donation = .ok () ↔
      (donation.jobId ∈ ids ∧ f.IsTime donation.donatedAt) ∧
        ∀ other ∈ seen, donation.jobId ≠ other.jobId ∧ donation.objectKey ≠ other.objectKey := by
  unfold validateDonation
  simp only [check_bind_eq_ok, ensure_eq_ok, checkParsed_eq_ok, decide_eq_true_eq, List.mem_map,
    not_exists, not_and]
  constructor
  · rintro ⟨hmem, hid, hobject, htime⟩
    exact ⟨⟨hmem, htime⟩, fun other hother =>
      ⟨fun h => hid other hother h.symm, fun h => hobject other hother h.symm⟩⟩
  · rintro ⟨⟨hmem, htime⟩, hapart⟩
    exact ⟨hmem, fun other hother h => (hapart other hother).1 h.symm,
      fun other hother h => (hapart other hother).2 h.symm, htime⟩

theorem validateClient_eq_ok (seen : List StoredClient) (client : StoredClient) :
    validateClient f seen client = .ok () ↔
      f.IsTime client.lastServedAt ∧ ∀ other ∈ seen, client.owner ≠ other.owner := by
  unfold validateClient
  simp only [check_bind_eq_ok, ensure_eq_ok, checkParsed_eq_ok, decide_eq_true_eq, List.mem_map,
    not_exists, not_and]
  constructor
  · rintro ⟨howner, htime⟩
    exact ⟨htime, fun other hother h => howner other hother h.symm⟩
  · rintro ⟨htime, hapart⟩
    exact ⟨fun other hother h => hapart other hother h.symm, htime⟩

theorem validate_eq_ok {s : StoreSnapshot Weight} : s.validate f = .ok () ↔ s.Valid f := by
  unfold StoreSnapshot.validate
  simp only [check_bind_eq_ok, checkEach_eq_ok validateJob_eq_ok,
    checkEach_eq_ok validateDonation_eq_ok, checkEach_eq_ok validateClient_eq_ok,
    List.not_mem_nil, false_implies, implies_true, true_and]
  constructor
  · rintro ⟨⟨hwell, hapart⟩, ⟨hdonated, hdonations⟩, hserved, hclients⟩
    exact ⟨hwell, hapart, hdonated, hdonations, hserved, hclients⟩
  · intro hvalid
    exact ⟨⟨hvalid.wellFormed, hvalid.apart⟩, ⟨hvalid.donated, hvalid.donationsApart⟩,
      hvalid.served, hvalid.clientsApart⟩

theorem StoredJob.Apart.symm {first second : StoredJob Weight} (hapart : first.Apart second) :
    second.Apart first where
  id := hapart.id.symm
  astrometryId := hapart.astrometryId.symm
  legacyId := fun legacyId hfirst hsecond => hapart.legacyId legacyId hsecond hfirst
  objectKey := hapart.objectKey.symm

instance : Std.Symm (@StoredJob.Apart Weight) := ⟨fun _ _ => StoredJob.Apart.symm⟩

namespace StoreSnapshot.Valid

variable {s : StoreSnapshot Weight}

theorem nodup_ids (hvalid : s.Valid f) : (s.jobs.map (·.id)).Nodup :=
  List.pairwise_map.mpr (hvalid.apart.imp fun hapart => hapart.id.symm)

theorem nodup_ranks (hvalid : s.Valid f) : (s.jobs.map StoredJob.rank).Nodup :=
  List.pairwise_map.mpr (hvalid.apart.imp fun hapart heq =>
    hapart.id (BitVec.eq_of_toNat_eq heq).symm)

theorem nodup_donations (hvalid : s.Valid f) : (s.donations.map (·.jobId)).Nodup :=
  List.pairwise_map.mpr (hvalid.donationsApart.imp fun hapart => hapart.1.symm)

theorem nodup_donation_ranks (hvalid : s.Valid f) :
    (s.donations.map StoredDonation.rank).Nodup :=
  List.pairwise_map.mpr (hvalid.donationsApart.imp fun hapart heq =>
    hapart.1 (BitVec.eq_of_toNat_eq heq).symm)

theorem nodup_owners (hvalid : s.Valid f) : (s.clients.map StoredClient.owner).Nodup :=
  List.pairwise_map.mpr (hvalid.clientsApart.imp fun hapart => hapart.symm)

/-- Different jobs of a valid snapshot are apart. -/
theorem apart_of_ne (hvalid : s.Valid f) {first second : StoredJob Weight}
    (hfirst : first ∈ s.jobs) (hsecond : second ∈ s.jobs) (hne : first ≠ second) :
    first.Apart second :=
  hvalid.apart.forall hfirst hsecond hne

theorem nodup_jobs (hvalid : s.Valid f) : s.jobs.Nodup :=
  hvalid.nodup_ids.of_map _

/-- Different contributions have different object keys. -/
theorem donations_apart_of_ne (hvalid : s.Valid f) {first second : StoredDonation}
    (hfirst : first ∈ s.donations) (hsecond : second ∈ s.donations) (hne : first ≠ second) :
    second.objectKey ≠ first.objectKey := by
  have : Std.Symm fun first second : StoredDonation =>
      second.jobId ≠ first.jobId ∧ second.objectKey ≠ first.objectKey :=
    ⟨fun _ _ h => ⟨h.1.symm, h.2.symm⟩⟩
  exact (hvalid.donationsApart.forall hfirst hsecond hne).2

end StoreSnapshot.Valid

theorem new_new (jobs : List (StoredJob Weight)) (donations : List StoredDonation)
    (clients : List StoredClient) :
    StoreSnapshot.new (StoreSnapshot.new jobs donations clients).jobs
        (StoreSnapshot.new jobs donations clients).donations
        (StoreSnapshot.new jobs donations clients).clients =
      StoreSnapshot.new jobs donations clients := by
  simp only [StoreSnapshot.new, sortByKey_of_pairwise (pairwise_sortByKey _ _)]

theorem isEmpty_new_nil : (StoreSnapshot.new ([] : List (StoredJob Weight)) [] []).isEmpty = true := by
  simp [StoreSnapshot.isEmpty, StoreSnapshot.new, sortByKey]

/-- The rows stand in the order of `StoreSnapshot::new`. -/
def StoreSnapshot.Sorted (s : StoreSnapshot Weight) : Prop :=
  StoreSnapshot.new s.jobs s.donations s.clients = s

theorem sorted_new (jobs : List (StoredJob Weight)) (donations : List StoredDonation)
    (clients : List StoredClient) : (StoreSnapshot.new jobs donations clients).Sorted :=
  new_new jobs donations clients

/-- A sorted snapshot is determined by its rows. -/
theorem new_eq_of_perm {s : StoreSnapshot Weight} (hvalid : s.Valid f) (hsorted : s.Sorted)
    {jobs : List (StoredJob Weight)} {donations : List StoredDonation}
    {clients : List StoredClient} (hjobs : jobs.Perm s.jobs)
    (hdonations : donations.Perm s.donations) (hclients : clients.Perm s.clients) :
    StoreSnapshot.new jobs donations clients = s := by
  calc
    StoreSnapshot.new jobs donations clients
        = StoreSnapshot.new s.jobs s.donations s.clients := by
          unfold StoreSnapshot.new
          rw [sortByKey_eq_of_perm hjobs.symm hvalid.nodup_ranks,
            sortByKey_eq_of_perm hdonations.symm hvalid.nodup_donation_ranks,
            sortByKey_eq_of_perm hclients.symm hvalid.nodup_owners]
    _ = s := hsorted

theorem StoreSnapshot.Valid.of_perm {s t : StoreSnapshot Weight} (hvalid : s.Valid f)
    (hjobs : s.jobs.Perm t.jobs) (hdonations : s.donations.Perm t.donations)
    (hclients : s.clients.Perm t.clients) : t.Valid f where
  wellFormed := fun job hmem => hvalid.wellFormed job (hjobs.mem_iff.mpr hmem)
  apart := (hjobs.pairwise_iff fun h => h.symm).mp hvalid.apart
  donated := by
    intro donation hmem
    obtain ⟨hjob, htime⟩ := hvalid.donated donation (hdonations.mem_iff.mpr hmem)
    exact ⟨(hjobs.map _).mem_iff.mp hjob, htime⟩
  donationsApart := (hdonations.pairwise_iff fun h => ⟨h.1.symm, h.2.symm⟩).mp
    hvalid.donationsApart
  served := fun client hmem => hvalid.served client (hclients.mem_iff.mpr hmem)
  clientsApart := (hclients.pairwise_iff fun h => h.symm).mp hvalid.clientsApart

/-- What a store reads is accepted exactly if its rows can be one store's,
whatever the order in which it read them, and equal rows give equal snapshots. -/
theorem validate_new_iff (f : Formats Weight) (jobs : List (StoredJob Weight))
    (donations : List StoredDonation) (clients : List StoredClient) :
    ((StoreSnapshot.new jobs donations clients).validate f = .ok () ↔
      (StoreSnapshot.mk jobs donations clients).Valid f) ∧
    ((StoreSnapshot.new jobs donations clients).validate f = .ok () →
      ∀ jobs' donations' clients', jobs'.Perm jobs → donations'.Perm donations →
        clients'.Perm clients → StoreSnapshot.new jobs' donations' clients' =
          .new jobs donations clients) := by
  have hjobs : (StoreSnapshot.new jobs donations clients).jobs.Perm jobs := sortByKey_perm _ _
  have hdonations : (StoreSnapshot.new jobs donations clients).donations.Perm donations :=
    sortByKey_perm _ _
  have hclients : (StoreSnapshot.new jobs donations clients).clients.Perm clients :=
    sortByKey_perm _ _
  constructor
  · rw [validate_eq_ok]
    constructor
    · intro hvalid
      exact hvalid.of_perm hjobs hdonations hclients
    · intro hvalid
      exact hvalid.of_perm hjobs.symm hdonations.symm hclients.symm
  · intro hvalidate jobs' donations' clients' hjobs' hdonations' hclients'
    exact new_eq_of_perm (validate_eq_ok.mp hvalidate) (sorted_new _ _ _)
      (hjobs'.trans hjobs.symm) (hdonations'.trans hdonations.symm)
      (hclients'.trans hclients.symm)

/-! ## Comparing with the source -/

section Comparison

variable [BEq Weight]

theorem StoredJob.beq_self (hf : f.Reflexive) {job : StoredJob Weight} (hwell : job.WellFormed f) :
    (job == job) = true := by
  change (job.queueWeight == job.queueWeight && decide (job.unweighted = job.unweighted)) = true
  simp [hf job.queueWeight hwell.finite]

theorem beq_self_of_forall {α : Type} [BEq α] {rows : List α}
    (hrows : ∀ row ∈ rows, (row == row) = true) : (rows == rows) = true := by
  induction rows with
  | nil => rfl
  | cons row rest ih =>
      rw [List.forall_mem_cons] at hrows
      simp [hrows.1, ih hrows.2]

/-- A valid snapshot passes the comparison with itself. -/
theorem StoreSnapshot.beq_self (hf : f.Reflexive) {s : StoreSnapshot Weight} (hvalid : s.Valid f) :
    (s == s) = true := by
  have hjobs : (s.jobs == s.jobs) = true :=
    beq_self_of_forall fun job hmem => StoredJob.beq_self hf (hvalid.wellFormed job hmem)
  change (s.jobs == s.jobs && decide (s.donations = s.donations) &&
    decide (s.clients = s.clients)) = true
  simp [hjobs]

/-- Every row of a destination equals the source's row with its key. -/
def ensureCopied {α κ : Type} [BEq α] [DecidableEq κ] (key : α → κ) (describe : κ → String)
    (source copies : List α) : Except String Unit :=
  copies.forM fun row =>
    match lastWith key source (key row) with
    | some sourceRow =>
        ensure (sourceRow == row) s!"destination {describe (key row)} differs from the source"
    | none => .error s!"destination {describe (key row)} does not exist in the source"

def StoreSnapshot.ensureSubsetOf (s source : StoreSnapshot Weight) : Except String Unit := do
  ensureCopied StoredJob.id (fun id => s!"job {uuidText id}") source.jobs s.jobs
  ensureCopied StoredDonation.jobId
    (fun id => s!"validation contribution for job {uuidText id}") source.donations s.donations
  ensureCopied StoredClient.owner
    (fun owner => s!"client fairness record {owner}") source.clients s.clients

theorem ensureCopied_eq_ok {α κ : Type} [BEq α] [DecidableEq κ] {key : α → κ}
    {describe : κ → String} {source copies : List α} (hkeys : (source.map key).Nodup) :
    ensureCopied key describe source copies = .ok () ↔
      ∀ row ∈ copies, ∃ sourceRow ∈ source, key sourceRow = key row ∧ (sourceRow == row) = true := by
  unfold ensureCopied
  rw [forM_eq_ok]
  apply forall₂_congr
  intro row _
  cases hlast : lastWith key source (key row) with
  | none =>
      have habsent : ∀ sourceRow ∈ source, key sourceRow ≠ key row := by
        intro sourceRow hmem hkey
        rw [← hkey, lastWith_of_mem hkeys hmem] at hlast
        cases hlast
      simp only [reduceCtorEq, false_iff, not_exists, not_and]
      intro sourceRow hmem hkey
      exact absurd hkey (habsent sourceRow hmem)
  | some sourceRow =>
      have hrow := mem_of_lastWith hlast
      simp only [ensure_eq_ok]
      constructor
      · intro hsame
        exact ⟨sourceRow, hrow.1, hrow.2, hsame⟩
      · rintro ⟨other, hmem, hkey, hsame⟩
        rwa [List.inj_on_of_nodup_map hkeys hrow.1 hmem (hrow.2.trans hkey.symm)]

/-- The subset test accepts a destination exactly if each of its records equals,
in every field, the source's record of the same key. -/
theorem ensureSubsetOf_eq_ok {s source : StoreSnapshot Weight} (hvalid : source.Valid f) :
    s.ensureSubsetOf source = .ok () ↔
      (∀ job ∈ s.jobs, ∃ sourceJob ∈ source.jobs,
        sourceJob.id = job.id ∧ (sourceJob == job) = true) ∧
      (∀ donation ∈ s.donations, donation ∈ source.donations) ∧
      ∀ client ∈ s.clients, client ∈ source.clients := by
  unfold StoreSnapshot.ensureSubsetOf
  rw [check_bind_eq_ok, check_bind_eq_ok, ensureCopied_eq_ok hvalid.nodup_ids,
    ensureCopied_eq_ok hvalid.nodup_donations, ensureCopied_eq_ok hvalid.nodup_owners]
  simp only [beq_iff_eq]
  have hdonations : (∀ donation ∈ s.donations, ∃ sourceDonation ∈ source.donations,
      sourceDonation.jobId = donation.jobId ∧ sourceDonation = donation) ↔
        ∀ donation ∈ s.donations, donation ∈ source.donations := by
    grind
  have hclients : (∀ client ∈ s.clients, ∃ sourceClient ∈ source.clients,
      sourceClient.owner = client.owner ∧ sourceClient = client) ↔
        ∀ client ∈ s.clients, client ∈ source.clients := by
    grind
  rw [hdonations, hclients]

end Comparison

/-! ## A snapshot with one job -/

/-- The value of a hexadecimal digit. -/
def hexValue (c : Char) : ℕ := if c.isDigit then c.toNat - 48 else c.toNat - 87

theorem hexValue_digitChar {digit : ℕ} (hdigit : digit < 16) :
    hexValue (Nat.digitChar digit) = digit := by
  interval_cases digit <;> rfl

def readHex (digits : List Char) : ℕ :=
  digits.foldl (fun value c => 16 * value + hexValue c) 0

theorem readHex_hexDigits {value count : ℕ} (hvalue : value < 16 ^ count) :
    readHex (hexDigits value count) = value := by
  induction count generalizing value with
  | zero =>
      have hzero : value = 0 := by simpa using hvalue
      rw [hzero]
      rfl
  | succ count ih =>
      have hquotient : value / 16 < 16 ^ count := by
        rw [Nat.div_lt_iff_lt_mul (by norm_num), ← pow_succ]
        exact hvalue
      have hread := ih hquotient
      unfold readHex at hread ⊢
      unfold hexDigits
      rw [List.foldl_append, hread, List.foldl_cons, List.foldl_nil,
        hexValue_digitChar (Nat.mod_lt _ (by norm_num))]
      omega

/-- The reader of hyphenated lower-case UUIDs. -/
def parseHyphenated (text : String) : Option JobId :=
  let id : JobId := BitVec.ofNat 128 (readHex (text.toList.filter (· ≠ '-')))
  if uuidText id = text then some id else none

theorem parseHyphenated_uuidText (id : JobId) : parseHyphenated (uuidText id) = some id := by
  have hread : readHex ((uuidText id).toList.filter (· ≠ '-')) = id.toNat := by
    rw [Images.filter_uuidText]
    exact readHex_hexDigits id.isLt
  have hid : BitVec.ofNat 128 (readHex ((uuidText id).toList.filter (· ≠ '-'))) = id := by
    rw [hread, BitVec.ofNat_toNat, BitVec.setWidth_eq]
  unfold parseHyphenated
  simp only [hid, if_true]

def sampleTime : String := "2026-07-15T10:00:00+00:00"

/-- Whole queue weights, the one time of the sample and empty options. -/
def sampleFormats : Formats ℕ where
  parseTime := fun value => if value = sampleTime then .ok 0 else .error "not a time"
  isJson := fun value => value = "\x7b\x7d"
  parseUuid := parseHyphenated
  isFinite := fun _ => true
  displayWeight := Nat.repr
  parseWeight := fun text => .ok (Nat.ofDigitChars 10 text.toList 0)

theorem lossless_sampleFormats : sampleFormats.Lossless := by
  constructor
  · intro id
    simp only [sampleFormats]
    exact parseHyphenated_uuidText id
  · intro weight _
    simp [sampleFormats, Nat.repr_eq_ofList_toDigits]

theorem reflexive_sampleFormats : sampleFormats.Reflexive := by
  intro weight _
  simp

def sampleStoredJob : StoredJob ℕ where
  id := 7
  astrometryId := 7
  legacyId := some 7
  owner := "client-a"
  queueWeight := 1
  objectKey := "uploads/sky.fits"
  originalFilename := "sky.fits"
  contentType := some "image/fits"
  optionsJson := "\x7b\x7d"
  status := "solving"
  createdAt := sampleTime
  startedAt := some sampleTime
  completedAt := none
  solutionJson := none
  error := none
  leaseToken := some "lease-token"
  leaseExpiresAt := some sampleTime
  attempts := 2
  notificationDeliveredAt := none

def sampleSnapshot : StoreSnapshot ℕ where
  jobs := [sampleStoredJob]
  donations := [⟨7, "validation/sky.fits", none, true, "validation-image-grant-v2", sampleTime⟩]
  clients := [⟨"client-a", sampleTime⟩]

theorem isTime_sampleTime : sampleFormats.IsTime sampleTime := ⟨0, by simp [sampleFormats]⟩

theorem wellFormed_sampleStoredJob : sampleStoredJob.WellFormed sampleFormats where
  astrometryId_ne_zero := by decide
  astrometryId_le := by decide
  legacyId_le := by
    rintro _ ⟨⟩
    decide
  attempts_le := by decide
  finite := rfl
  status := ⟨.solving, rfl⟩
  options := by simp [sampleFormats, sampleStoredJob]
  solution := fun _ h => nomatch h
  times := by
    simp [StoredJob.times, sampleStoredJob, isTime_sampleTime]

theorem valid_sampleSnapshot : sampleSnapshot.Valid sampleFormats := by
  constructor
  case wellFormed => simpa [sampleSnapshot] using wellFormed_sampleStoredJob
  all_goals simp [sampleSnapshot, isTime_sampleTime, sampleStoredJob]

theorem sorted_sampleSnapshot : sampleSnapshot.Sorted := by
  simp [StoreSnapshot.Sorted, StoreSnapshot.new, sampleSnapshot, sortByKey]

end Migration

end SeizaServer
