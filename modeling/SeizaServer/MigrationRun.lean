import SeizaServer.DynamoMigration
import SeizaServer.LegacyConversion

/-!
# Runs of the store migration

`run` connects, which sets a SQL destination up, reads and validates both stores,
decides whether the destination may be written, imports and verifies.  Into an
empty destination it always completes and the destination's snapshot is the
source's; into a DynamoDB table it may be interrupted between any two writes and
resumed.
-/

namespace SeizaServer.Migration

open KeyedLists

variable {Weight σ τ : Type} [BEq Weight]

/-- What `run` asks of a store. -/
structure Backend (Weight σ : Type) where
  label : String
  /-- What connecting makes of a destination. -/
  connect : σ → σ × Except String Unit
  snapshot : σ → Except String (StoreSnapshot Weight)
  write : Bool → StoreSnapshot Weight → σ → σ × Except String Unit

/-- A table whose scans return its items in the order that `scan` gives. -/
def dynamoBackend (f : Formats Weight) (scan : DynamoTable → List Item) :
    Backend Weight DynamoTable where
  label := "dynamodb"
  connect := fun table => (table, .ok ())
  snapshot := fun table => dynamoSnapshot f (scan table)
  write := fun resume s table => dynamoImport f s resume table

/-- A database without tables of the first schema. -/
def sqlxBackend (f : Formats Weight) : Backend Weight (SqlTables Weight) where
  label := "sqlx"
  connect := fun tables => (tables, .ok ())
  snapshot := snapshotUuidSql f
  write := fun _ s tables => sqlImport s tables

/-- The statements of a conversion, up to the first one that fails. -/
def convertAll (f : Formats Weight) (newUuid : LegacyJobRow Weight → JobId) :
    List (ConversionStep Weight) → SqlTables Weight → SqlTables Weight × Except String Unit
  | [], tables => (tables, .ok ())
  | step :: steps, tables =>
      match convert f newUuid tables step with
      | .ok converted => convertAll f newUuid steps converted
      | .error message => (tables, .error message)

/-- A database with tables of the first schema, whose jobs are converted when a
migration connects to it as its destination, on a dry run too. -/
def legacySqlxBackend (f : Formats Weight) (newUuid : LegacyJobRow Weight → JobId)
    (legacy : LegacyTables Weight) : Backend Weight (SqlTables Weight) :=
  { sqlxBackend f with connect := convertAll f newUuid (conversionSteps legacy) }

structure MigrationArgs where
  dryRun : Bool
  resume : Bool

def withContext {α : Type} (context : String) : Except String α → Except String α
  | .ok value => .ok value
  | .error cause => .error (context ++ ": " ++ cause)

section Run

variable (f : Formats Weight)

def readStore (activity role : String) (backend : Backend Weight σ) (store : σ) :
    Except String (StoreSnapshot Weight) := do
  let snapshot ← withContext s!"{activity} {backend.label} {role} store" (backend.snapshot store)
  snapshot.validate f
  .ok snapshot

/-- Whether the destination may be written. -/
def checkDestination (resume : Bool) (label : String) (destination source : StoreSnapshot Weight) :
    Except String Unit :=
  if resume then destination.ensureSubsetOf source
  else ensure destination.isEmpty (label ++
    " destination is not empty; use a new store or pass --resume only after verifying it " ++
    "contains a partial copy of this source")

/-- Everything that happens before the first write: the snapshot to import. -/
def prepare (args : MigrationArgs) (source : Backend Weight σ) (sourceStore : σ)
    (destination : Backend Weight τ) (store : τ) : Except String (StoreSnapshot Weight) := do
  let sourceSnapshot ← readStore f "reading" "source" source sourceStore
  let destinationSnapshot ← readStore f "reading" "destination" destination store
  checkDestination args.resume destination.label destinationSnapshot sourceSnapshot
  .ok sourceSnapshot

def verify (destination : Backend Weight τ) (source : StoreSnapshot Weight) (store : τ) :
    Except String Unit := do
  let verified ← readStore f "verifying" "destination" destination store
  ensure (verified == source)
    (s!"destination verification failed: source has {source.jobs.length} jobs/" ++
      s!"{source.donations.length} contributions/{source.clients.length} clients, destination " ++
      s!"has {verified.jobs.length} jobs/{verified.donations.length} contributions/" ++
      s!"{verified.clients.length} clients")

/-- A migration once it has connected. -/
def migrateConnected (args : MigrationArgs) (source : Backend Weight σ) (sourceStore : σ)
    (destination : Backend Weight τ) (store : τ) : τ × Except String Unit :=
  match prepare f args source sourceStore destination store with
  | .error message => (store, .error message)
  | .ok snapshot =>
      if args.dryRun then (store, .ok ())
      else
        match destination.write args.resume snapshot store with
        | (written, .error cause) =>
            (written, .error s!"writing {destination.label} destination store: {cause}")
        | (written, .ok ()) => (written, verify f destination snapshot written)

/-- `run`: the destination afterwards, and what is reported. -/
def migrate (args : MigrationArgs) (source : Backend Weight σ) (sourceStore : σ)
    (destination : Backend Weight τ) (store : τ) : τ × Except String Unit :=
  match destination.connect store with
  | (connected, .error message) => (connected, .error message)
  | (connected, .ok ()) => migrateConnected f args source sourceStore destination connected

/-- A migration into a table that stops after some of its writes: refused, or
what the table holds then. -/
def migrateUntil (resume : Bool) (source : Backend Weight σ) (sourceStore : σ)
    (scan : DynamoTable → List Item) (stop : ℕ) (table : DynamoTable) :
    Except String DynamoTable := do
  let snapshot ← prepare f ⟨false, resume⟩ source sourceStore (dynamoBackend f scan) table
  .ok (applyWrites (!resume) ((importWrites f snapshot).take stop) table).1

end Run

variable {f : Formats Weight} {s : StoreSnapshot Weight}

/-! ## Preparation -/

omit [BEq Weight] in
theorem readStore_eq_ok {activity role : String} {backend : Backend Weight σ} {store : σ} :
    readStore f activity role backend store = .ok s ↔
      backend.snapshot store = .ok s ∧ s.Valid f := by
  unfold readStore
  cases backend.snapshot store with
  | error cause => simp [withContext, bind, Except.bind]
  | ok snapshot =>
      rw [← validate_eq_ok (f := f)]
      simp only [withContext, bind, Except.bind]
      cases hvalid : snapshot.validate f with
      | error message =>
          simp only [reduceCtorEq, Except.ok.injEq, false_iff, not_and]
          rintro rfl
          simp [hvalid]
      | ok _ =>
          simp only [Except.ok.injEq]
          constructor
          · rintro rfl
            exact ⟨rfl, hvalid⟩
          · exact fun h => h.1

theorem prepare_eq_ok {args : MigrationArgs} {source : Backend Weight σ} {sourceStore : σ}
    {destination : Backend Weight τ} {store : τ} :
    prepare f args source sourceStore destination store = .ok s ↔
      (source.snapshot sourceStore = .ok s ∧ s.Valid f) ∧
        ∃ d, (destination.snapshot store = .ok d ∧ d.Valid f) ∧
          checkDestination args.resume destination.label d s = .ok () := by
  unfold prepare
  simp only [bind_eq_ok, readStore_eq_ok]
  constructor
  · rintro ⟨source, hsource, d, hd, _, hallowed, hsame⟩
    cases hsame
    exact ⟨hsource, d, hd, hallowed⟩
  · rintro ⟨hsource, d, hd, hallowed⟩
    exact ⟨s, hsource, d, hd, (), hallowed, rfl⟩

theorem verify_eq_ok (hrefl : f.Reflexive) {destination : Backend Weight τ} {store : τ}
    (hvalid : s.Valid f) (hsnapshot : destination.snapshot store = .ok s) :
    verify f destination s store = .ok () := by
  have hread : readStore f "verifying" "destination" destination store = .ok s :=
    readStore_eq_ok.mpr ⟨hsnapshot, hvalid⟩
  unfold verify
  rw [hread]
  simp [bind, Except.bind, StoreSnapshot.beq_self hrefl hvalid]

omit [BEq Weight] in
theorem valid_of_isEmpty {d : StoreSnapshot Weight} (hempty : d.isEmpty = true) : d.Valid f := by
  unfold StoreSnapshot.isEmpty at hempty
  simp only [Bool.and_eq_true, List.isEmpty_iff] at hempty
  obtain ⟨⟨hjobs, hdonations⟩, hclients⟩ := hempty
  constructor <;> simp [hjobs, hdonations, hclients]

/-- A run whose import gives the source back completes. -/
theorem migrate_eq_ok (hrefl : f.Reflexive) {args : MigrationArgs} {source : Backend Weight σ}
    {sourceStore : σ} {destination : Backend Weight τ} {store written : τ}
    (hconnect : destination.connect store = (store, .ok ()))
    (hprepare : prepare f args source sourceStore destination store = .ok s)
    (hlive : args.dryRun = false)
    (hwrite : destination.write args.resume s store = (written, .ok ()))
    (hsnapshot : destination.snapshot written = .ok s) :
    migrate f args source sourceStore destination store = (written, .ok ()) := by
  have hvalid := (prepare_eq_ok.mp hprepare).1.2
  unfold migrate migrateConnected
  rw [hconnect]
  dsimp only
  rw [hprepare]
  simp only [hlive, Bool.false_eq_true, if_false, hwrite]
  rw [verify_eq_ok hrefl hvalid hsnapshot]

/-! ## Snapshots are sorted -/

omit [BEq Weight] in
theorem sorted_dynamoSnapshot {items : List Item} (hsnapshot : dynamoSnapshot f items = .ok s) :
    s.Sorted := by
  unfold dynamoSnapshot at hsnapshot
  obtain ⟨_, _, hsnapshot⟩ := bind_eq_ok.mp hsnapshot
  obtain ⟨_, _, hsnapshot⟩ := bind_eq_ok.mp hsnapshot
  obtain ⟨_, _, hsnapshot⟩ := bind_eq_ok.mp hsnapshot
  obtain ⟨_, _, hsnapshot⟩ := bind_eq_ok.mp hsnapshot
  cases hsnapshot
  exact sorted_new _ _ _

omit [BEq Weight] in
theorem sorted_snapshotUuidSql {tables : SqlTables Weight}
    (hsnapshot : snapshotUuidSql f tables = .ok s) : s.Sorted := by
  unfold snapshotUuidSql at hsnapshot
  obtain ⟨_, _, hsnapshot⟩ := bind_eq_ok.mp hsnapshot
  obtain ⟨_, _, hsnapshot⟩ := bind_eq_ok.mp hsnapshot
  obtain ⟨_, _, hsnapshot⟩ := bind_eq_ok.mp hsnapshot
  cases hsnapshot
  exact sorted_new _ _ _

/-! ## Empty destinations -/

/-- A backend into which every valid snapshot can be imported and read back. -/
structure Backend.Faithful (f : Formats Weight) (backend : Backend Weight τ) : Prop where
  connected : ∀ store, backend.connect store = (store, .ok ())
  sorted : ∀ store s, backend.snapshot store = .ok s → s.Sorted
  roundTrip : ∀ (s d : StoreSnapshot Weight) store, s.Valid f → s.Sorted →
    backend.snapshot store = .ok d → d.isEmpty = true →
      ∃ written, backend.write false s store = (written, .ok ()) ∧
        backend.snapshot written = .ok s

omit [BEq Weight] in
theorem faithful_sqlxBackend (hf : f.Lossless) : (sqlxBackend f).Faithful f where
  connected := fun _ => rfl
  sorted := fun _ _ => sorted_snapshotUuidSql
  roundTrip := by
    intro s d tables hvalid hsorted hsnapshot hempty
    obtain ⟨written, hwritten, hcopy⟩ := (sqlHolds_of_isEmpty hsnapshot hempty).imported hvalid
      (by simp) (by simp) (by simp)
    exact ⟨written, hwritten, hcopy.snapshot hf hvalid hsorted⟩

omit [BEq Weight] in
theorem faithful_dynamoBackend (hf : f.Lossless) {scan : DynamoTable → List Item}
    (hscan : ∀ table, (scan table).Perm table.rows) : (dynamoBackend f scan).Faithful f where
  connected := fun _ => rfl
  sorted := fun _ _ => sorted_dynamoSnapshot
  roundTrip := by
    intro s d table hvalid hsorted hsnapshot hempty
    have hholds : Holds f s ∅ ∅ table := holds_of_isEmpty (hscan table) hsnapshot hempty
    obtain ⟨written, hwritten, hheld⟩ := hholds.imported hf hvalid false
      fun _ => ⟨rfl, rfl⟩
    obtain ⟨copy, hcopy, hpart⟩ := hheld.snapshot hf hvalid (hscan written)
    refine ⟨written, hwritten, ?_⟩
    rw [← hpart.complete hvalid hsorted (fun _ h => .inr h) (fun _ h => .inr h)]
    exact hcopy

theorem migrate_of_faithful (hrefl : f.Reflexive) (source : Backend Weight σ) {sourceStore : σ}
    {destination : Backend Weight τ} (hfaithful : destination.Faithful f) {store : τ}
    (hsource : source.snapshot sourceStore = .ok s) (hvalid : s.Valid f) (hsorted : s.Sorted)
    {d : StoreSnapshot Weight} (hsnapshot : destination.snapshot store = .ok d)
    (hempty : d.isEmpty = true) :
    ∃ written, migrate f ⟨false, false⟩ source sourceStore destination store = (written, .ok ()) ∧
      destination.snapshot written = .ok s := by
  obtain ⟨written, hwritten, hcopy⟩ := hfaithful.roundTrip s d store hvalid hsorted hsnapshot hempty
  have hprepare : prepare f ⟨false, false⟩ source sourceStore destination store = .ok s := by
    rw [prepare_eq_ok]
    exact ⟨⟨hsource, hvalid⟩, d, ⟨hsnapshot, valid_of_isEmpty hempty⟩,
      by simp [checkDestination, hempty]⟩
  exact ⟨written, migrate_eq_ok hrefl (hfaithful.connected store) hprepare rfl hwritten hcopy, hcopy⟩

/-- Whatever the two stores hold and whatever the options: a migration that
changes its destination after connecting to it is no dry run, and every record
that the destination held then equals the source's record of the same key. -/
theorem migrate_keeps_records (args : MigrationArgs) (source : Backend Weight σ) (sourceStore : σ)
    (destination : Backend Weight τ) (store : τ) :
    (migrate f args source sourceStore destination store).1 = (destination.connect store).1 ∨
      args.dryRun = false ∧ ∃ s d, source.snapshot sourceStore = .ok s ∧
        destination.snapshot (destination.connect store).1 = .ok d ∧
        (∀ job ∈ d.jobs, ∃ sourceJob ∈ s.jobs,
          sourceJob.id = job.id ∧ (sourceJob == job) = true) ∧
        (∀ donation ∈ d.donations, donation ∈ s.donations) ∧
        ∀ client ∈ d.clients, client ∈ s.clients := by
  unfold migrate
  rcases destination.connect store with ⟨connected, message | _⟩
  · exact .inl rfl
  dsimp only
  cases hprepare : prepare f args source sourceStore destination connected with
  | error message =>
      left
      simp [migrateConnected, hprepare]
  | ok s =>
      obtain ⟨⟨hsource, hvalid⟩, d, ⟨hsnapshot, _⟩, hallowed⟩ := prepare_eq_ok.mp hprepare
      cases hdry : args.dryRun with
      | true =>
          left
          simp [migrateConnected, hprepare, hdry]
      | false =>
          refine .inr ⟨rfl, s, d, hsource, hsnapshot, ?_⟩
          unfold checkDestination at hallowed
          split at hallowed
          next => exact (ensureSubsetOf_eq_ok hvalid).mp hallowed
          next =>
            simp only [ensure_eq_ok, StoreSnapshot.isEmpty, Bool.and_eq_true,
              List.isEmpty_iff] at hallowed
            simp [hallowed]

omit [BEq Weight] in
/-- Connecting runs the conversion of every start. -/
theorem convertAll_of_foldlM {newUuid : LegacyJobRow Weight → JobId}
    {steps : List (ConversionStep Weight)} {tables written : SqlTables Weight}
    (hwritten : steps.foldlM (convert f newUuid) tables = .ok written) :
    convertAll f newUuid steps tables = (written, .ok ()) := by
  induction steps generalizing tables with
  | nil =>
      cases hwritten
      rfl
  | cons step steps ih =>
      rw [List.foldlM_cons] at hwritten
      obtain ⟨converted, hstep, hrest⟩ := bind_eq_ok.mp hwritten
      simp only [convertAll, hstep]
      exact ih hrest

/-- A migration into a database of the first schema is one into what the start-up
conversion makes of it. -/
theorem migrate_into_legacy {newUuid : LegacyJobRow Weight → JobId}
    {legacy : LegacyTables Weight} (args : MigrationArgs) (source : Backend Weight σ)
    (sourceStore : σ) {tables written : SqlTables Weight}
    (hwritten : migrateLegacyJobs f newUuid legacy tables = .ok written) :
    migrate f args source sourceStore (legacySqlxBackend f newUuid legacy) tables =
      migrate f args source sourceStore (sqlxBackend f) written := by
  have hconnect : (legacySqlxBackend f newUuid legacy).connect tables = (written, .ok ()) :=
    convertAll_of_foldlM hwritten
  unfold migrate
  rw [hconnect]
  rfl

section IntoTable

variable {scan : DynamoTable → List Item} {tables : SqlTables Weight} {table : DynamoTable}

/-- A SQL store whose snapshot validates is copied into any table whose own
snapshot is empty, and the copy's snapshot is the source's. -/
theorem migrate_sqlx_to_dynamodb (hf : f.Lossless) (hrefl : f.Reflexive)
    (hscan : ∀ table, (scan table).Perm table.rows) {d : StoreSnapshot Weight}
    (hsource : snapshotUuidSql f tables = .ok s) (hvalid : s.validate f = .ok ())
    (hdestination : dynamoSnapshot f (scan table) = .ok d) (hempty : d.isEmpty = true) :
    ∃ written, migrate f ⟨false, false⟩ (sqlxBackend f) tables (dynamoBackend f scan) table =
        (written, .ok ()) ∧ dynamoSnapshot f (scan written) = .ok s :=
  migrate_of_faithful hrefl (sqlxBackend f) (faithful_dynamoBackend hf hscan) hsource
    (validate_eq_ok.mp hvalid) (sorted_snapshotUuidSql hsource) hdestination hempty

theorem migrate_sample_to_dynamodb :
    ∃ written, migrate sampleFormats ⟨false, false⟩ (sqlxBackend sampleFormats) sampleTables
        (dynamoBackend sampleFormats KeyedTable.rows) .empty = (written, .ok ()) ∧
      dynamoSnapshot sampleFormats written.rows = .ok sampleSnapshot :=
  migrate_sqlx_to_dynamodb lossless_sampleFormats reflexive_sampleFormats (fun _ => .refl _)
    snapshot_sampleTables (validate_eq_ok.mpr valid_sampleSnapshot)
    (dynamoSnapshot_nil sampleFormats) isEmpty_new_nil

/-- The other direction: a DynamoDB table whose snapshot validates is copied
into empty SQL tables. -/
theorem migrate_dynamodb_to_sqlx (hf : f.Lossless) (hrefl : f.Reflexive)
    {d : StoreSnapshot Weight} (hsource : dynamoSnapshot f (scan table) = .ok s)
    (hvalid : s.validate f = .ok ()) (hdestination : snapshotUuidSql f tables = .ok d)
    (hempty : d.isEmpty = true) :
    ∃ written, migrate f ⟨false, false⟩ (dynamoBackend f scan) table (sqlxBackend f) tables =
        (written, .ok ()) ∧ snapshotUuidSql f written = .ok s :=
  migrate_of_faithful hrefl (dynamoBackend f scan) (faithful_sqlxBackend hf) hsource
    (validate_eq_ok.mp hvalid) (sorted_dynamoSnapshot hsource) hdestination hempty

theorem migrate_sample_to_sqlx :
    ∃ written, migrate sampleFormats ⟨false, false⟩ (dynamoBackend sampleFormats KeyedTable.rows)
        sampleTable (sqlxBackend sampleFormats) .empty = (written, .ok ()) ∧
      snapshotUuidSql sampleFormats written = .ok sampleSnapshot :=
  migrate_dynamodb_to_sqlx lossless_sampleFormats reflexive_sampleFormats snapshot_sampleTable
    (validate_eq_ok.mpr valid_sampleSnapshot) (snapshot_empty sampleFormats) isEmpty_new_nil

/-! ## Interrupted and resumed migrations -/

variable {arrived : Set (StoredJob Weight)} {served : Set StoredClient}

/-- A half-written table passes every check of a resumed migration. -/
theorem prepare_resume (hf : f.Lossless) (hrefl : f.Reflexive)
    (hscan : ∀ table, (scan table).Perm table.rows) (hvalid : s.Valid f)
    (hholds : Holds f s arrived served table) {source : Backend Weight σ} {sourceStore : σ}
    (hsource : source.snapshot sourceStore = .ok s) (dryRun : Bool) :
    prepare f ⟨dryRun, true⟩ source sourceStore (dynamoBackend f scan) table = .ok s := by
  obtain ⟨d, hsnapshot, hpart⟩ := hholds.snapshot hf hvalid (hscan table)
  rw [prepare_eq_ok]
  exact ⟨⟨hsource, hvalid⟩, d, ⟨hsnapshot, hpart.valid hvalid⟩, hpart.ensureSubsetOf hrefl hvalid⟩

theorem migrateUntil_resume (hf : f.Lossless) (hrefl : f.Reflexive)
    (hscan : ∀ table, (scan table).Perm table.rows) (hvalid : s.Valid f)
    (hholds : Holds f s arrived served table) {source : Backend Weight σ} {sourceStore : σ}
    (hsource : source.snapshot sourceStore = .ok s) (stop : ℕ) :
    ∃ written, migrateUntil f true source sourceStore scan stop table = .ok written ∧
      ∃ arrived served, Holds f s arrived served written := by
  obtain ⟨written, hwritten, hheld⟩ := hholds.importUntil hf hvalid false
    (fun h => absurd h Bool.false_ne_true) stop
  refine ⟨written, ?_, _, _, hheld⟩
  unfold migrateUntil
  rw [prepare_resume hf hrefl hscan hvalid hholds hsource]
  simp [bind, Except.bind, hwritten]

theorem foldlM_migrateUntil (hf : f.Lossless) (hrefl : f.Reflexive)
    (hscan : ∀ table, (scan table).Perm table.rows) (hvalid : s.Valid f)
    {source : Backend Weight σ} {sourceStore : σ}
    (hsource : source.snapshot sourceStore = .ok s) (stops : List ℕ)
    (hholds : Holds f s arrived served table) :
    ∃ written, stops.foldlM (fun table stop =>
        migrateUntil f true source sourceStore scan stop table) table = .ok written ∧
      ∃ arrived served, Holds f s arrived served written := by
  induction stops generalizing arrived served table with
  | nil => exact ⟨table, rfl, arrived, served, hholds⟩
  | cons stop stops ih =>
      obtain ⟨middle, hmiddle, arrived, served, hheld⟩ :=
        migrateUntil_resume hf hrefl hscan hvalid hholds hsource stop
      obtain ⟨written, hwritten, hlast⟩ := ih hheld
      refine ⟨written, ?_, hlast⟩
      rw [List.foldlM_cons, hmiddle]
      exact hwritten

/-- A migration into an empty table that stops after any number of writes, and
whose resumed attempts stop after any numbers of writes, is never refused, and
the first attempt that runs to its end leaves the source's snapshot. -/
theorem resume_after_interruptions (hf : f.Lossless) (hrefl : f.Reflexive)
    (hscan : ∀ table, (scan table).Perm table.rows) {d : StoreSnapshot Weight}
    (hsource : snapshotUuidSql f tables = .ok s) (hvalid : s.validate f = .ok ())
    (hdestination : dynamoSnapshot f (scan table) = .ok d) (hempty : d.isEmpty = true)
    (first : ℕ) (stops : List ℕ) :
    ∃ stopped written,
      (do
        let started ← migrateUntil f false (sqlxBackend f) tables scan first table
        stops.foldlM (fun table stop =>
          migrateUntil f true (sqlxBackend f) tables scan stop table) started) = .ok stopped ∧
      migrate f ⟨false, true⟩ (sqlxBackend f) tables (dynamoBackend f scan) stopped =
        (written, .ok ()) ∧
      dynamoSnapshot f (scan written) = .ok s := by
  have hvalid := validate_eq_ok.mp hvalid
  have hsorted := sorted_snapshotUuidSql hsource
  have hread : (sqlxBackend f).snapshot tables = .ok s := hsource
  -- the first attempt starts from nothing but counters
  have hholds : Holds f s ∅ ∅ table := holds_of_isEmpty (hscan table) hdestination hempty
  have hprepare : prepare f ⟨false, false⟩ (sqlxBackend f) tables (dynamoBackend f scan) table =
      .ok s := by
    rw [prepare_eq_ok]
    exact ⟨⟨hread, hvalid⟩, d, ⟨hdestination, valid_of_isEmpty hempty⟩,
      by simp [checkDestination, hempty]⟩
  obtain ⟨started, hstarted, hheld⟩ := hholds.importUntil hf hvalid true
    (fun _ => ⟨rfl, rfl⟩) first
  have hfirst : migrateUntil f false (sqlxBackend f) tables scan first table = .ok started := by
    unfold migrateUntil
    rw [hprepare]
    simp [bind, Except.bind, hstarted]
  -- every further attempt resumes a half-written table
  obtain ⟨stopped, hstopped, arrived, served, hlast⟩ :=
    foldlM_migrateUntil hf hrefl hscan hvalid hread stops hheld
  -- the complete attempt
  obtain ⟨written, hwritten, hcomplete⟩ := hlast.imported hf hvalid true
    (fun h => absurd h.symm Bool.false_ne_true)
  obtain ⟨copy, hcopy, hpart⟩ := hcomplete.snapshot hf hvalid (hscan written)
  have hsnapshot : dynamoSnapshot f (scan written) = .ok s := by
    rw [hcopy, hpart.complete hvalid hsorted (fun _ h => .inr h) (fun _ h => .inr h)]
  refine ⟨stopped, written, ?_, ?_, hsnapshot⟩
  · rw [hfirst]
    exact hstopped
  · exact migrate_eq_ok hrefl rfl
      (prepare_resume hf hrefl hscan hvalid hlast hread false) rfl hwritten hsnapshot

theorem resume_sample_after_interruptions :
    ∃ stopped written,
      (do
        let started ← migrateUntil sampleFormats false (sqlxBackend sampleFormats) sampleTables
          KeyedTable.rows 0 .empty
        [1, 0].foldlM (fun table stop => migrateUntil sampleFormats true
          (sqlxBackend sampleFormats) sampleTables KeyedTable.rows stop table) started) =
        .ok stopped ∧
      migrate sampleFormats ⟨false, true⟩ (sqlxBackend sampleFormats) sampleTables
        (dynamoBackend sampleFormats KeyedTable.rows) stopped = (written, .ok ()) ∧
      dynamoSnapshot sampleFormats written.rows = .ok sampleSnapshot :=
  resume_after_interruptions lossless_sampleFormats reflexive_sampleFormats (fun _ => .refl _)
    snapshot_sampleTables (validate_eq_ok.mpr valid_sampleSnapshot)
    (dynamoSnapshot_nil sampleFormats) isEmpty_new_nil 0 [1, 0]

end IntoTable

end SeizaServer.Migration
