import SeizaServer.SqlxCallEffects

/-!
# The record invariant of the SQLx repository

Which columns are set together, how often a job was claimed, and how the four
tables hang together, in every state a run of calls can reach.  Each of the
three ways a call changes the tables keeps the invariant on its own; a call is
a composition of them.
-/

namespace SeizaServer

variable {Options Solution : Type}

/-- The three shapes of a row: queued, leased, finished. -/
def JobRow.WellShaped (row : JobRow Options Solution) : Prop :=
  match row.status with
  | .queued =>
      row.leaseToken = none ∧ row.leaseExpiresAt = none ∧ row.completedAt = none ∧
        row.solutionJson = none ∧ row.error = none
  | .solving =>
      row.leaseToken.isSome ∧ row.leaseExpiresAt.isSome ∧ row.startedAt.isSome ∧
        row.completedAt = none ∧ row.solutionJson = none ∧ row.error = none
  | .succeeded =>
      row.leaseToken = none ∧ row.leaseExpiresAt = none ∧ row.completedAt.isSome ∧
        row.solutionJson.isSome
  | .failed =>
      row.leaseToken = none ∧ row.leaseExpiresAt = none ∧ row.completedAt.isSome ∧
        row.solutionJson = none ∧ row.error.isSome

namespace JobRow.WellShaped

variable {row : JobRow Options Solution} {now : Time} {token : String}

theorem inserted (job : JobRecord Options Solution) : (JobRow.inserted job).WellShaped := by
  simp [JobRow.inserted, JobRow.WellShaped]

theorem requeued (hshape : row.WellShaped) (hsolving : row.status = .solving) :
    row.requeued.WellShaped := by
  simp only [JobRow.WellShaped, hsolving] at hshape
  obtain ⟨_, _, _, hcompleted, hsolution, herror⟩ := hshape
  exact ⟨rfl, rfl, hcompleted, hsolution, herror⟩

theorem taken (hshape : row.WellShaped) (hqueued : row.status = .queued) (expires : Time) :
    (row.taken now token expires).WellShaped := by
  simp only [JobRow.WellShaped, hqueued] at hshape
  obtain ⟨_, _, hcompleted, hsolution, herror⟩ := hshape
  exact ⟨rfl, rfl, rfl, hcompleted, hsolution, herror⟩

theorem extended (hshape : row.WellShaped) (hsolving : row.status = .solving)
    (expires : Time) : (row.extended expires).WellShaped := by
  simp only [JobRow.WellShaped, JobRow.extended, hsolving] at hshape ⊢
  obtain ⟨htoken, _, hrest⟩ := hshape
  exact ⟨htoken, rfl, hrest⟩

theorem finished {solution : Option Solution} {error : Option String}
    (hresult : ¬ (solution.isNone ∧ error.isNone)) :
    (row.finished (completionStatus solution) now solution error).WellShaped := by
  cases solution with
  | some value => simp [JobRow.WellShaped, JobRow.finished, completionStatus]
  | none =>
      simp only [Option.isNone_none, true_and, Option.isNone_iff_eq_none] at hresult
      simp [JobRow.WellShaped, JobRow.finished, completionStatus,
        Option.isSome_iff_ne_none, hresult]

end JobRow.WellShaped

/-- How many calls of the run were successful claims of the job. -/
def successfulClaims [TimeStore] (dialect : SqlDialect) (id : JobId) :
    Database Options Solution → List (Invocation Options Solution) → ℕ
  | _, [] => 0
  | db, invocation :: rest =>
      (if claimedJob dialect db invocation = some id then 1 else 0) +
        successfulClaims dialect id (invocation.after dialect db) rest

/-- The invariant, relative to the number of successful claims so far. -/
structure RecordInvariant (db : Database Options Solution) (claims : JobId → ℕ) : Prop where
  shape : ∀ id row, db.jobs.find? id = some row → row.WellShaped
  attempts : ∀ id row, db.jobs.find? id = some row → row.attempts = claims id
  unclaimed : ∀ id, db.jobs.find? id = none → claims id = 0
  objectKeys : ∀ id other row row', db.jobs.find? id = some row →
    db.jobs.find? other = some row' → row.objectKey = row'.objectKey → id = other
  notified : ∀ id, (db.outbox.find? id).isSome = (db.jobs.find? id).isSome
  donated : ∀ id, (db.donations.find? id).isSome →
    ∃ row, db.jobs.find? id = some row ∧ row.status.terminal = true

namespace RecordInvariant

variable {db : Database Options Solution} {claims : JobId → ℕ}

theorem empty : RecordInvariant (.empty : Database Options Solution) fun _ => 0 where
  shape := by intro id row hfind; cases hfind
  attempts := by intro id row hfind; cases hfind
  unclaimed := by intro id _; rfl
  objectKeys := by intro id other row row' hfind; cases hfind
  notified := by intro id; rfl
  donated := by intro id hsome; cases hsome

/-- Rewriting rows in place keeps the invariant when it keeps the shape, the
object key, the number of attempts and the finality of every row. -/
theorem rewrite {after : Database Options Solution}
    (hinv : RecordInvariant db claims) (assign : JobId → JobRow Options Solution →
      JobRow Options Solution)
    (hjobs : ∀ id, after.jobs.find? id = (db.jobs.find? id).map (assign id))
    (hshape : ∀ id row, db.jobs.find? id = some row → (assign id row).WellShaped)
    (hattempts : ∀ id row, (assign id row).attempts = row.attempts)
    (hobjectKey : ∀ id row, (assign id row).objectKey = row.objectKey)
    (hterminal : ∀ id row, row.status.terminal = true → (assign id row).status.terminal = true)
    (houtbox : ∀ id, (after.outbox.find? id).isSome = (db.outbox.find? id).isSome)
    (hdonations : after.donations = db.donations) :
    RecordInvariant after claims where
  shape := by
    intro id row hfind
    rw [hjobs, Option.map_eq_some_iff] at hfind
    obtain ⟨old, hold, rfl⟩ := hfind
    exact hshape id old hold
  attempts := by
    intro id row hfind
    rw [hjobs, Option.map_eq_some_iff] at hfind
    obtain ⟨old, hold, rfl⟩ := hfind
    rw [hattempts]
    exact hinv.attempts id old hold
  unclaimed := by
    intro id hfind
    rw [hjobs, Option.map_eq_none_iff] at hfind
    exact hinv.unclaimed id hfind
  objectKeys := by
    intro id other row row' hfind hother hkey
    rw [hjobs, Option.map_eq_some_iff] at hfind hother
    obtain ⟨old, hold, rfl⟩ := hfind
    obtain ⟨old', hold', rfl⟩ := hother
    rw [hobjectKey, hobjectKey] at hkey
    exact hinv.objectKeys id other old old' hold hold' hkey
  notified := by
    intro id
    rw [houtbox, hjobs, Option.isSome_map]
    exact hinv.notified id
  donated := by
    intro id hsome
    rw [hdonations] at hsome
    obtain ⟨row, hfind, hfinal⟩ := hinv.donated id hsome
    exact ⟨assign id row, by rw [hjobs, hfind, Option.map_some], hterminal id row hfinal⟩

theorem reclaimed [TimeStore] (hinv : RecordInvariant db claims) (now : Time) :
    RecordInvariant (db.reclaimed now) claims := by
  refine hinv.rewrite (fun _ row => if row.expiredBy now then row.requeued else row)
    (db.find?_jobs_reclaimed now) ?_ ?_ ?_ ?_ ?_ (db.donations_reclaimed now)
  · intro id row hfind
    by_cases hexpired : row.expiredBy now = true
    · rw [if_pos hexpired]
      simp only [JobRow.expiredBy, Bool.and_eq_true, decide_eq_true_eq] at hexpired
      exact (hinv.shape id row hfind).requeued hexpired.1
    · rw [if_neg hexpired]
      exact hinv.shape id row hfind
  · intro id row
    split_ifs <;> rfl
  · intro id row
    split_ifs <;> rfl
  · intro id row hterminal
    have hsolving : row.expiredBy now = false := by
      unfold JobRow.expiredBy
      cases hstatus : row.status <;> simp [hstatus, JobStatus.terminal] at hterminal ⊢
    simpa [hsolving] using hterminal
  · intro id
    rw [Database.find?_outbox_reclaimed]
    split_ifs with hexpired
    · rw [hinv.notified]
      simp only [Option.any_eq_true] at hexpired
      obtain ⟨row, hfind, _⟩ := hexpired
      simp [hfind]
    · rfl

theorem granted {row : JobRow Options Solution} {id : JobId} (hinv : RecordInvariant db claims)
    (hfind : db.jobs.find? id = some row) (hqueued : row.status = .queued)
    (owner : String) (now : Time) (token : String) (expires : Time) :
    RecordInvariant (db.granted id owner now token expires)
      (fun other => (if id = other then 1 else 0) + claims other) := by
  have hjobs : ∀ other, (db.granted id owner now token expires).jobs.find? other =
      if id = other then some (row.taken now token expires) else db.jobs.find? other := by
    intro other
    rw [Database.find?_granted]
    by_cases hid : id = other
    · subst hid
      simp [hfind, hqueued]
    · have hne : ¬ other = id := fun h => hid h.symm
      simp [hid, hne]
  refine ⟨?_, ?_, ?_, ?_, ?_, ?_⟩
  · intro other row' hother
    rw [hjobs] at hother
    split_ifs at hother with hid
    · rw [← Option.some.inj hother]
      exact (hinv.shape id row hfind).taken hqueued expires
    · exact hinv.shape other row' hother
  · intro other row' hother
    rw [hjobs] at hother
    split_ifs at hother with hid
    · subst hid
      rw [← Option.some.inj hother, if_pos rfl, ← hinv.attempts id row hfind, Nat.add_comm]
      rfl
    · rw [if_neg hid, Nat.zero_add]
      exact hinv.attempts other row' hother
  · intro other hother
    rw [hjobs] at hother
    split_ifs at hother with hid
    rw [if_neg hid, Nat.zero_add]
    exact hinv.unclaimed other hother
  · intro first second row' row'' hfirst hsecond hkey
    rw [hjobs] at hfirst hsecond
    split_ifs at hfirst hsecond with hone htwo htwo
    · exact hone.symm.trans htwo
    · subst hone
      rw [← Option.some.inj hfirst] at hkey
      exact hinv.objectKeys id second row row'' hfind hsecond hkey
    · subst htwo
      rw [← Option.some.inj hsecond] at hkey
      exact hinv.objectKeys first id row' row hfirst hfind hkey
    · exact hinv.objectKeys first second row' row'' hfirst hsecond hkey
  · intro other
    rw [hjobs]
    simp only [Database.granted, Database.updateJob]
    rw [hinv.notified]
    split_ifs with hid
    · subst hid
      simp [hfind]
    · rfl
  · intro other hsome
    obtain ⟨row', hother, hterminal⟩ := hinv.donated other hsome
    have hid : id ≠ other := by
      rintro rfl
      rw [hfind] at hother
      cases hother
      rw [hqueued] at hterminal
      cases hterminal
    exact ⟨row', by rw [hjobs, if_neg hid, hother], hterminal⟩

/-- A conditional update under a lease. -/
theorem updateJob [TimeStore] (hinv : RecordInvariant db claims) (id : JobId) (token : String)
    (now : Time)
    {assign : JobRow Options Solution → JobRow Options Solution}
    (hassign : ∀ row, (assign row).id = row.id)
    (hshape : ∀ row : JobRow Options Solution, row.WellShaped → row.status = .solving →
      (assign row).WellShaped)
    (hattempts : ∀ row, (assign row).attempts = row.attempts)
    (hobjectKey : ∀ row, (assign row).objectKey = row.objectKey) :
    RecordInvariant (db.updateJob id (fun row => row.leasedTo token now) assign hassign).1
      claims := by
  have hsolving : ∀ row : JobRow Options Solution, row.leasedTo token now = true →
      row.status = .solving := by
    intro row hleased
    simp only [JobRow.leasedTo, Bool.and_eq_true, decide_eq_true_eq] at hleased
    exact hleased.1.1
  refine hinv.rewrite
    (fun other row => if other = id ∧ row.leasedTo token now = true then assign row else row)
    (fun other => Database.find?_updateJob hassign other) ?_ ?_ ?_ ?_ (fun _ => rfl) rfl
  · intro other row hfind
    split_ifs with hcond
    · exact hshape row (hinv.shape other row hfind) (hsolving row hcond.2)
    · exact hinv.shape other row hfind
  · intro other row
    split_ifs
    · exact hattempts row
    · rfl
  · intro other row
    split_ifs
    · exact hobjectKey row
    · rfl
  · intro other row hterminal
    have hidle : row.leasedTo token now = false := by
      cases hleased : row.leasedTo token now
      · rfl
      · rw [hsolving row hleased] at hterminal
        cases hterminal
    simpa [hidle] using hterminal

theorem inserted {job : JobRecord Options Solution} {after : Database Options Solution}
    (hinv : RecordInvariant db claims)
    {jobs : KeyedTable (JobRow Options Solution) JobId JobRow.id}
    {outbox : KeyedTable OutboxRow JobId OutboxRow.jobId}
    (hkey : ∀ row ∈ db.jobs.rows, row.objectKey ≠ job.objectKey)
    (hjobs : db.jobs.insert? (JobRow.inserted (enqueuedRecord job)) = some jobs)
    (houtbox : db.outbox.insert? ⟨job.id, none⟩ = some outbox)
    (hafter : after = { db with jobs := jobs, outbox := outbox }) :
    RecordInvariant after claims := by
  subst hafter
  have hfresh : db.jobs.find? job.id = none := KeyedTable.fresh_of_insert? hjobs
  have hfind : ∀ id, jobs.find? id =
      if job.id = id then some (JobRow.inserted (enqueuedRecord job)) else db.jobs.find? id :=
    fun id => KeyedTable.find?_insert? hjobs id
  have hnew : ∀ id row, db.jobs.find? id = some row → row.objectKey ≠ job.objectKey :=
    fun id row hrow => hkey row (KeyedTable.mem_of_find? hrow)
  refine ⟨?_, ?_, ?_, ?_, ?_, ?_⟩
  · intro id row hrow
    simp only [hfind] at hrow
    split_ifs at hrow with hid
    · rw [← Option.some.inj hrow]
      exact JobRow.WellShaped.inserted _
    · exact hinv.shape id row hrow
  · intro id row hrow
    simp only [hfind] at hrow
    split_ifs at hrow with hid
    · rw [← Option.some.inj hrow, ← hid]
      exact (hinv.unclaimed job.id hfresh).symm
    · exact hinv.attempts id row hrow
  · intro id hnone
    simp only [hfind] at hnone
    split_ifs at hnone
    exact hinv.unclaimed id hnone
  · intro id other row row' hrow hrow' hsame
    simp only [hfind] at hrow hrow'
    split_ifs at hrow hrow' with hid hother hother
    · exact hid.symm.trans hother
    · rw [← Option.some.inj hrow] at hsame
      exact (hnew other row' hrow' hsame.symm).elim
    · rw [← Option.some.inj hrow'] at hsame
      exact (hnew id row hrow hsame).elim
    · exact hinv.objectKeys id other row row' hrow hrow' hsame
  · intro id
    simp only [hfind, KeyedTable.find?_insert? houtbox]
    split_ifs
    · rfl
    · exact hinv.notified id
  · intro id hsome
    obtain ⟨row, hrow, hterminal⟩ := hinv.donated id hsome
    have hid : job.id ≠ id := by
      rintro rfl
      rw [hfresh] at hrow
      cases hrow
    exact ⟨row, by simpa only [hfind, if_neg hid] using hrow, hterminal⟩

theorem donatedTo {id : JobId} {donation : ValidationDonation}
    {step : Database Options Solution × ℕ} (hinv : RecordInvariant db claims)
    (hterminal : ((db.jobs.find? id).any fun row => row.status.terminal) = true)
    (hupsert : db.upsertDonation id donation = .ok step) :
    RecordInvariant step.1 claims := by
  unfold Database.upsertDonation at hupsert
  split_ifs at hupsert
  rw [← Except.ok.inj hupsert]
  refine ⟨hinv.shape, hinv.attempts, hinv.unclaimed, hinv.objectKeys, hinv.notified, ?_⟩
  intro other hsome
  rw [KeyedTable.find?_upsert] at hsome
  split_ifs at hsome with hid
  · simp only [Option.any_eq_true] at hterminal
    obtain ⟨row, hfind, hfinal⟩ := hterminal
    exact ⟨row, by rw [← hid]; exact hfind, hfinal⟩
  · exact hinv.donated other hsome

theorem marked (hinv : RecordInvariant db claims) (id : JobId) (now : Time) :
    RecordInvariant { db with
      outbox := db.outbox.modify (fun row => row.jobId = id)
        fun row => { row with deliveredAt := some now } } claims := by
  refine hinv.rewrite (fun _ row => row) (fun _ => by simp) hinv.shape (fun _ _ => rfl)
    (fun _ _ => rfl) (fun _ _ hterminal => hterminal) ?_ rfl
  intro other
  rw [KeyedTable.find?_modify, Option.isSome_map]

/-! ## Every call keeps the invariant -/

/-- The count of successful claims after one more call. -/
def countClaim (claimed : Option JobId) (claims : JobId → ℕ) (id : JobId) : ℕ :=
  (if claimed = some id then 1 else 0) + claims id

@[simp] theorem countClaim_none (claims : JobId → ℕ) : countClaim none claims = claims := by
  funext id
  simp [countClaim]

@[simp] theorem countClaim_some (id : JobId) (claims : JobId → ℕ) :
    countClaim (some id) claims = fun other => (if id = other then 1 else 0) + claims other := by
  funext other
  simp [countClaim]

theorem claim [TimeStore] (hinv : RecordInvariant db claims) (dialect : SqlDialect)
    (env : CallEnvironment) (requestedJobId : Option JobId) (leaseSeconds : UInt64) :
    RecordInvariant
      (Invocation.after dialect ⟨.claim requestedJobId leaseSeconds, env⟩ db)
      (countClaim (claimedJob dialect db ⟨.claim requestedJobId leaseSeconds, env⟩)
        claims) := by
  simp only [Invocation.after, RepositoryCall.sqlProgram, claimedJob, atomically_claim]
  have hreclaimed := hinv.reclaimed env.now
  cases hcandidate : (db.reclaimed env.now).candidate requestedJobId env.now with
  | none => simpa using hreclaimed
  | some job =>
      obtain ⟨row, hfind, hqueued, _⟩ := Database.candidate_eq_some hcandidate
      cases hexpires : leaseExpiresAt env.now leaseSeconds with
      | none => simpa using hinv
      | some expires =>
          simpa using
            hreclaimed.granted hfind hqueued job.owner env.now env.token expires

theorem call [TimeStore] (hinv : RecordInvariant db claims) (dialect : SqlDialect)
    (invocation : Invocation Options Solution) :
    RecordInvariant (invocation.after dialect db)
      (countClaim (claimedJob dialect db invocation) claims) := by
  obtain ⟨call, env⟩ := invocation
  cases call with
  | claim requestedJobId leaseSeconds => exact hinv.claim dialect env requestedJobId leaseSeconds
  | heartbeat id leaseToken leaseSeconds =>
      simp only [Invocation.after, RepositoryCall.sqlProgram, atomically_heartbeat, claimedJob]
      cases leaseExpiresAt env.now leaseSeconds with
      | none => simpa using hinv
      | some expires =>
          simpa using
            hinv.updateJob id leaseToken env.now (fun row => row.extended_id expires)
              (fun row hshape hsolving => hshape.extended hsolving expires)
              (fun _ => rfl) (fun _ => rfl)
  | complete id leaseToken solution error =>
      simp only [Invocation.after, RepositoryCall.sqlProgram, atomically_complete, claimedJob]
      by_cases hnone : solution.isNone = true ∧ error.isNone = true
      · simpa [hnone] using hinv
      · simp only [hnone, if_false]
        simpa using
          hinv.updateJob id leaseToken env.now
            (fun row => row.finished_id (completionStatus solution) env.now solution error)
            (fun _ _ _ => JobRow.WellShaped.finished hnone) (fun _ => rfl) (fun _ => rfl)
  | pendingNotifications limit =>
      simp only [Invocation.after, RepositoryCall.sqlProgram, atomically_pendingNotifications,
        claimedJob]
      simpa using hinv.reclaimed env.now
  | markNotificationDelivered id =>
      simp only [Invocation.after, RepositoryCall.sqlProgram,
        atomically_markNotificationDelivered, claimedJob]
      simpa using hinv.marked id env.now
  | donateValidation id donation =>
      simp only [Invocation.after, RepositoryCall.sqlProgram, atomically_donateValidation,
        claimedJob]
      split_ifs with hterminal
      · cases hupsert : db.upsertDonation id donation with
        | error cause => simpa using hinv
        | ok step => simpa using hinv.donatedTo hterminal hupsert
      · simpa using hinv
  | enqueue job =>
      simp only [Invocation.after, RepositoryCall.sqlProgram, claimedJob]
      rcases atomically_enqueue_cases env db job with ⟨row, _, hafter⟩ |
        ⟨jobs, outbox, hkey, _, hjobs, houtbox, hafter⟩ | ⟨index, hafter⟩
      · simpa [hafter] using hinv
      · simpa [hafter] using hinv.inserted hkey hjobs houtbox rfl
      · simpa [hafter] using hinv
  | get id =>
      simp only [Invocation.after, RepositoryCall.sqlProgram, atomically_get, claimedJob]
      simpa using hinv
  | findByObjectKey objectKey =>
      simp only [Invocation.after, RepositoryCall.sqlProgram, atomically_findByObjectKey,
        claimedJob]
      simpa using hinv
  | inputKey id leaseToken =>
      simp only [Invocation.after, RepositoryCall.sqlProgram, atomically_inputKey, claimedJob]
      simpa using hinv

theorem congr {claims' : JobId → ℕ} (hinv : RecordInvariant db claims)
    (heq : ∀ id, claims id = claims' id) : RecordInvariant db claims' := by
  rwa [← funext heq]

/-- Every run of calls keeps the invariant. -/
theorem replay [TimeStore] (hinv : RecordInvariant db claims) (dialect : SqlDialect)
    (calls : List (Invocation Options Solution)) :
    RecordInvariant (SeizaServer.replay dialect db calls)
      (fun id => successfulClaims dialect id db calls + claims id) := by
  induction calls generalizing db claims with
  | nil => exact hinv.congr fun id => (Nat.zero_add _).symm
  | cons invocation rest ih =>
      refine (ih (hinv.call dialect invocation)).congr ?_
      intro id
      simp only [countClaim, successfulClaims]
      omega

end RecordInvariant

/-- The rows with one key are counted once. -/
private theorem countP_jobId {db : Database Options Solution} {id : JobId}
    (hsome : (db.outbox.find? id).isSome) :
    db.outbox.rows.countP (fun note => note.jobId = id) = 1 := by
  obtain ⟨note, hnote⟩ := Option.isSome_iff_exists.mp hsome
  have hcount := db.outbox.affected_eq id fun _ => true
  simpa [KeyedTable.affected, hnote] using hcount

/-- The record invariant in every state reachable from an empty schema: each
row has one of the three shapes, was claimed `attempts` times and has exactly
one notification; ids and object keys are unique; only finished jobs carry a
donation. -/
theorem sqlx_record_invariant [TimeStore] (dialect : SqlDialect)
    (calls : List (Invocation Options Solution)) :
    (∀ row ∈ (replay dialect .empty calls).jobs.rows,
      row.WellShaped ∧
        row.attempts = successfulClaims dialect row.id .empty calls ∧
        (replay dialect .empty calls).outbox.rows.countP (fun note => note.jobId = row.id) =
          1) ∧
    ((replay dialect .empty calls).jobs.rows.map JobRow.id).Nodup ∧
    ((replay dialect .empty calls).jobs.rows.map JobRow.objectKey).Nodup ∧
    ∀ donation ∈ (replay dialect .empty calls).donations.rows,
      ∃ row ∈ (replay dialect .empty calls).jobs.rows,
        row.id = donation.jobId ∧ row.status.terminal = true := by
  have hinv := RecordInvariant.empty.replay dialect calls
  refine ⟨?_, (replay dialect .empty calls).jobs.unique, ?_, ?_⟩
  · intro row hmem
    have hfind := KeyedTable.find?_of_mem hmem
    refine ⟨hinv.shape row.id row hfind, hinv.attempts row.id row hfind, countP_jobId ?_⟩
    rw [hinv.notified, hfind]
    rfl
  · refine List.Nodup.map_on ?_ (List.Nodup.of_map _ (replay dialect .empty calls).jobs.unique)
    intro row hrow row' hrow' hsame
    have hfind := KeyedTable.find?_of_mem hrow
    have hfind' := KeyedTable.find?_of_mem hrow'
    have hid := hinv.objectKeys row.id row'.id row row' hfind hfind' hsame
    rw [hid, hfind'] at hfind
    exact (Option.some.inj hfind).symm
  · intro donation hmem
    have hsome : ((replay dialect .empty calls).donations.find? donation.jobId).isSome := by
      rw [KeyedTable.find?_of_mem hmem]
      rfl
    obtain ⟨row, hfind, hterminal⟩ := hinv.donated donation.jobId hsome
    exact ⟨row, KeyedTable.mem_of_find? hfind, KeyedTable.key_of_find? hfind, hterminal⟩

end SeizaServer
