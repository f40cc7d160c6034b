import SeizaServer.SqlxRepository

/-!
# Repository calls as atomic steps

A call is executed from start to end against the committed tables with one
reading of the clock and one fresh token.  An open transaction that is never
committed leaves no trace.  For every call the module derives what it returns
and which tables it leaves, so that nothing later looks at statements again.
-/

namespace SeizaServer

open Interaction

variable {Options Solution : Type} [TimeStore]

/-- The tables as committed, and as the open transaction sees them. -/
structure Session (Options Solution : Type) where
  committed : Database Options Solution
  working : Option (Database Options Solution)

/-- Serve one request of a call that has the database to itself. -/
def Session.answer (env : CallEnvironment) (session : Session Options Solution) :
    (r : SqlRequest Options Solution) →
      Except Fault (Session Options Solution × r.Response)
  | .begin => .ok (⟨session.committed, some session.committed⟩, ())
  | .beginImmediate => .ok (⟨session.committed, some session.committed⟩, ())
  | .commit => .ok (⟨session.working.getD session.committed, none⟩, ())
  | .rollback => .ok (⟨session.committed, none⟩, ())
  | .utcNow => .ok (session, env.now)
  | .uuidV7 => .ok (session, env.token)
  | .query statement =>
      match session.working with
      | some db =>
          (db.run statement).map fun step => (⟨session.committed, some step.1⟩, step.2)
      | none =>
          (session.committed.run statement).map fun step => (⟨step.1, none⟩, step.2)

/-- Execute a program as one atomic step.  Whatever transaction it leaves open
is rolled back. -/
def atomically {α : Type} (env : CallEnvironment) (program : SqlProgram Options Solution α)
    (db : Database Options Solution) : Database Options Solution × Except Fault α :=
  ((program.exec (Session.answer env) ⟨db, none⟩).1.committed,
    (program.exec (Session.answer env) ⟨db, none⟩).2)

section Execution

variable {α : Type} (env : CallEnvironment) (committed db : Database Options Solution)
  (session : Session Options Solution)

@[simp] theorem exec_begin (f : Unit → SqlProgram Options Solution α) :
    (begin >>= f).exec (Session.answer env) session =
      (f ()).exec (Session.answer env) ⟨session.committed, some session.committed⟩ := by
  simp [begin, Program.exec_request, Session.answer]

@[simp] theorem exec_beginImmediate (f : Unit → SqlProgram Options Solution α) :
    (beginImmediate >>= f).exec (Session.answer env) session =
      (f ()).exec (Session.answer env) ⟨session.committed, some session.committed⟩ := by
  simp [beginImmediate, Program.exec_request, Session.answer]

@[simp] theorem exec_commit (f : Unit → SqlProgram Options Solution α) :
    (commit >>= f).exec (Session.answer env) ⟨committed, some db⟩ =
      (f ()).exec (Session.answer env) ⟨db, none⟩ := by
  simp [commit, Program.exec_request, Session.answer]

@[simp] theorem exec_rollback (f : Unit → SqlProgram Options Solution α) :
    (rollback >>= f).exec (Session.answer env) session =
      (f ()).exec (Session.answer env) ⟨session.committed, none⟩ := by
  simp [rollback, Program.exec_request, Session.answer]

@[simp] theorem exec_utcNow (f : Time → SqlProgram Options Solution α) :
    (utcNow >>= f).exec (Session.answer env) session =
      (f env.now).exec (Session.answer env) session := by
  simp [utcNow, Program.exec_request, Session.answer]

@[simp] theorem exec_uuidV7 (f : String → SqlProgram Options Solution α) :
    (uuidV7 >>= f).exec (Session.answer env) session =
      (f env.token).exec (Session.answer env) session := by
  simp [uuidV7, Program.exec_request, Session.answer]

theorem exec_query_working (statement : Statement Options Solution)
    (f : statement.Answer → SqlProgram Options Solution α) :
    (query statement >>= f).exec (Session.answer env) ⟨committed, some db⟩ =
      match db.run statement with
      | .error cause => (⟨committed, some db⟩, .error cause)
      | .ok step => (f step.2).exec (Session.answer env) ⟨committed, some step.1⟩ := by
  simp only [query, Program.request_bind, Program.done_bind, Program.exec_request,
    Session.answer]
  cases db.run statement <;> rfl

theorem exec_query_committed (statement : Statement Options Solution)
    (f : statement.Answer → SqlProgram Options Solution α) :
    (query statement >>= f).exec (Session.answer env) ⟨committed, none⟩ =
      match committed.run statement with
      | .error cause => (⟨committed, none⟩, .error cause)
      | .ok step => (f step.2).exec (Session.answer env) ⟨step.1, none⟩ := by
  simp only [query, Program.request_bind, Program.done_bind, Program.exec_request,
    Session.answer]
  cases committed.run statement <;> rfl

@[simp] theorem exec_query_last (statement : Statement Options Solution) :
    (query statement).exec (Session.answer env) ⟨committed, none⟩ =
      match committed.run statement with
      | .error cause => (⟨committed, none⟩, .error cause)
      | .ok step => (⟨step.1, none⟩, .ok step.2) := by
  have hlast := exec_query_committed env committed statement Program.done
  rw [Program.bind_done] at hlast
  exact hlast

end Execution

/-! ## Reclaiming -/

namespace Database

omit [TimeStore] in
theorem undelivered_jobId : ∀ row : OutboxRow, { row with deliveredAt := none }.jobId = row.jobId :=
  fun _ => rfl

/-- One round of the reclaiming loop. -/
def requeue (db : Database Options Solution) (id : JobId) : Database Options Solution :=
  { (db.updateJob id (fun row => row.status = .solving) JobRow.requeued JobRow.requeued_id).1 with
    outbox := db.outbox.upsert ⟨id, none⟩ (fun row => { row with deliveredAt := none })
      undelivered_jobId }

def expiredIds (db : Database Options Solution) (now : Time) : List JobId :=
  (db.jobs.rows.filter fun row => row.expiredBy now).map JobRow.id

/-- The tables after `reclaim_expired`. -/
def reclaimed (db : Database Options Solution) (now : Time) : Database Options Solution :=
  (db.expiredIds now).foldl requeue db

theorem mem_expiredIds {db : Database Options Solution} {now : Time} {id : JobId} :
    id ∈ db.expiredIds now ↔
      ∃ row, db.jobs.find? id = some row ∧ row.expiredBy now = true := by
  simp only [expiredIds, List.mem_map, List.mem_filter]
  constructor
  · rintro ⟨row, ⟨hmem, hexpired⟩, rfl⟩
    exact ⟨row, KeyedTable.find?_of_mem hmem, hexpired⟩
  · rintro ⟨row, hfind, hexpired⟩
    exact ⟨row, ⟨KeyedTable.mem_of_find? hfind, hexpired⟩, KeyedTable.key_of_find? hfind⟩

omit [TimeStore] in
theorem find?_jobs_foldl_requeue (ids : List JobId) (db : Database Options Solution)
    (id : JobId) :
    ((ids.foldl requeue db).jobs.find? id) =
      (db.jobs.find? id).map fun row =>
        if id ∈ ids ∧ row.status = .solving then row.requeued else row := by
  induction ids generalizing db with
  | nil => simp
  | cons head rest ih =>
      rw [List.foldl_cons, ih]
      simp only [requeue, updateJob, KeyedTable.find?_modify, Option.map_map]
      cases hfind : db.jobs.find? id with
      | none => rfl
      | some row =>
          have hkey : row.id = id := KeyedTable.key_of_find? hfind
          by_cases hhead : id = head
          · by_cases hsolving : row.status = .solving
            · simp [hkey, hhead, hsolving, JobRow.requeued]
            · simp [hhead, hsolving]
          · simp [hkey, hhead]

omit [TimeStore] in
theorem find?_outbox_foldl_requeue (ids : List JobId) (db : Database Options Solution)
    (id : JobId) :
    ((ids.foldl requeue db).outbox.find? id) =
      if id ∈ ids then some ⟨id, none⟩ else db.outbox.find? id := by
  induction ids generalizing db with
  | nil => simp
  | cons head rest ih =>
      rw [List.foldl_cons, ih]
      simp only [requeue, updateJob, KeyedTable.find?_upsert]
      by_cases hrest : id ∈ rest
      · simp [hrest]
      · by_cases hhead : head = id
        · subst hhead
          cases hfind : db.outbox.find? head with
          | none => simp [hrest]
          | some note =>
              have hkey : note.jobId = head := KeyedTable.key_of_find? hfind
              simp [← hkey]
        · have hne : ¬ id = head := fun h => hhead h.symm
          simp [hrest, hhead, hne]

omit [TimeStore] in
theorem foldl_requeue_others (ids : List JobId) (db : Database Options Solution) :
    (ids.foldl requeue db).donations = db.donations ∧
      (ids.foldl requeue db).clientService = db.clientService := by
  induction ids generalizing db with
  | nil => exact ⟨rfl, rfl⟩
  | cons head rest ih => exact ih (db.requeue head)

/-- Reclaiming requeues exactly the jobs whose lease has run out. -/
@[simp] theorem find?_jobs_reclaimed (db : Database Options Solution) (now : Time) (id : JobId) :
    (db.reclaimed now).jobs.find? id =
      (db.jobs.find? id).map fun row => if row.expiredBy now then row.requeued else row := by
  rw [reclaimed, find?_jobs_foldl_requeue]
  cases hfind : db.jobs.find? id with
  | none => rfl
  | some row =>
      have hmem : id ∈ db.expiredIds now ↔ row.expiredBy now = true := by
        simp [mem_expiredIds, hfind]
      by_cases hexpired : row.expiredBy now = true
      · have hsolving : row.status = .solving := by
          simp only [JobRow.expiredBy, Bool.and_eq_true, decide_eq_true_eq] at hexpired
          exact hexpired.1
        simp [hmem, hexpired, hsolving]
      · simp [hmem, hexpired]

/-- The outbox of a requeued job is open again. -/
@[simp] theorem find?_outbox_reclaimed (db : Database Options Solution) (now : Time)
    (id : JobId) :
    (db.reclaimed now).outbox.find? id =
      if (db.jobs.find? id).any fun row => row.expiredBy now then some ⟨id, none⟩
      else db.outbox.find? id := by
  rw [reclaimed, find?_outbox_foldl_requeue]
  simp only [mem_expiredIds]
  cases db.jobs.find? id <;> simp

@[simp] theorem donations_reclaimed (db : Database Options Solution) (now : Time) :
    (db.reclaimed now).donations = db.donations := (foldl_requeue_others _ db).1

@[simp] theorem clientService_reclaimed (db : Database Options Solution) (now : Time) :
    (db.reclaimed now).clientService = db.clientService := (foldl_requeue_others _ db).2

/-! ## Candidates -/

def lastServedAt (db : Database Options Solution) (owner : String) : Option Time :=
  (db.clientService.find? owner).map ClientRow.lastServedAt

def queuedJobs (db : Database Options Solution) : List (JobRow Options Solution) :=
  (db.jobs.rows.filter fun row => row.status = .queued).insertionSort
    fun first second => first.createdAt ≤ second.createdAt

/-- The job `select_candidate` returns. -/
def candidate (db : Database Options Solution) (requestedJobId : Option JobId) (now : Time) :
    Option (JobRecord Options Solution) :=
  match requestedJobId with
  | some id => ((db.jobs.find? id).filter fun row => row.status = .queued).map recordFromRow
  | none =>
      (bestCandidate now db.lastServedAt (db.queuedJobs.map recordFromRow) none).map Prod.snd

omit [TimeStore] in
theorem mem_queuedJobs {db : Database Options Solution} {row : JobRow Options Solution} :
    row ∈ db.queuedJobs ↔ db.jobs.find? row.id = some row ∧ row.status = .queued := by
  simp [queuedJobs, List.mem_insertionSort, KeyedTable.mem_rows_iff]

omit [TimeStore] in
/-- A candidate is the record of a queued row. -/
theorem candidate_eq_some {db : Database Options Solution} {requestedJobId : Option JobId}
    {now : Time} {job : JobRecord Options Solution}
    (hcandidate : db.candidate requestedJobId now = some job) :
    ∃ row, db.jobs.find? job.id = some row ∧ row.status = .queued ∧ job = recordFromRow row := by
  cases requestedJobId with
  | some id =>
      simp only [candidate, Option.map_eq_some_iff, Option.filter_eq_some_iff,
        decide_eq_true_eq] at hcandidate
      obtain ⟨row, ⟨hfind, hqueued⟩, rfl⟩ := hcandidate
      have hkey : row.id = id := KeyedTable.key_of_find? hfind
      exact ⟨row, by simpa [recordFromRow, hkey] using hfind, hqueued, rfl⟩
  | none =>
      simp only [candidate, Option.map_eq_some_iff] at hcandidate
      obtain ⟨chosen, hchosen, rfl⟩ := hcandidate
      obtain ⟨horigin, _, _⟩ := bestCandidate_spec _ _ _ _ hchosen
      rcases horigin with hnone | ⟨job, hmem, rfl⟩
      · simp at hnone
      · obtain ⟨row, hrow, rfl⟩ := List.mem_map.mp hmem
        obtain ⟨hfind, hqueued⟩ := mem_queuedJobs.mp hrow
        exact ⟨row, hfind, hqueued, rfl⟩

omit [TimeStore] in
theorem taken_jobId (now : Time) (token : String) (expires : Time) :
    ∀ row : JobRow Options Solution, (row.taken now token expires).id = row.id :=
  fun row => row.taken_id now token expires

omit [TimeStore] in
theorem served_owner (now : Time) :
    ∀ row : ClientRow, { row with lastServedAt := now }.owner = row.owner :=
  fun _ => rfl

/-- The tables after a successful claim. -/
def granted (db : Database Options Solution) (id : JobId) (owner : String) (now : Time)
    (token : String) (expires : Time) : Database Options Solution :=
  { (db.updateJob id (fun row => row.status = .queued)
      (fun row => row.taken now token expires) (taken_jobId now token expires)).1 with
    clientService := db.clientService.upsert ⟨owner, now⟩
      (fun row => { row with lastServedAt := now }) (served_owner now) }

omit [TimeStore] in
/-- An `UPDATE` by id affects the row when the row meets its condition. -/
theorem updateJob_affected {db : Database Options Solution} {id : JobId}
    {condition : JobRow Options Solution → Bool}
    {assign : JobRow Options Solution → JobRow Options Solution}
    (hassign : ∀ row, (assign row).id = row.id) :
    (db.updateJob id condition assign hassign).2 =
      (db.jobs.find? id).elim 0 fun row => if condition row then 1 else 0 :=
  db.jobs.affected_eq id condition

omit [TimeStore] in
theorem find?_updateJob {db : Database Options Solution} {id : JobId}
    {condition : JobRow Options Solution → Bool}
    {assign : JobRow Options Solution → JobRow Options Solution}
    (hassign : ∀ row, (assign row).id = row.id) (other : JobId) :
    (db.updateJob id condition assign hassign).1.jobs.find? other =
      (db.jobs.find? other).map fun row =>
        if other = id ∧ condition row = true then assign row else row := by
  simp only [updateJob, KeyedTable.find?_modify]
  cases hfind : db.jobs.find? other with
  | none => rfl
  | some row =>
      have hkey : row.id = other := KeyedTable.key_of_find? hfind
      simp [hkey]

omit [TimeStore] in
theorem find?_granted (db : Database Options Solution) (id : JobId) (owner : String)
    (now : Time) (token : String) (expires : Time) (other : JobId) :
    (db.granted id owner now token expires).jobs.find? other =
      (db.jobs.find? other).map fun row =>
        if other = id ∧ row.status = .queued then row.taken now token expires else row := by
  have hupdate : (db.granted id owner now token expires).jobs.find? other = _ :=
    find?_updateJob (fun row => row.taken_id now token expires) other
  simpa using hupdate

end Database

section Programs

variable (env : CallEnvironment) (committed db : Database Options Solution)

theorem exec_requeueEach {α : Type} (ids : List JobId)
    (f : Unit → SqlProgram Options Solution α) :
    (SqlxJobRepository.requeueEach ids >>= f).exec (Session.answer env) ⟨committed, some db⟩ =
      (f ()).exec (Session.answer env) ⟨committed, some (ids.foldl Database.requeue db)⟩ := by
  induction ids generalizing db with
  | nil => rfl
  | cons head rest ih =>
      rw [SqlxJobRepository.requeueEach]
      simp only [bind_assoc]
      rw [exec_query_working]
      simp only [Database.run]
      rw [exec_query_working]
      simp only [Database.run]
      exact ih _

@[simp] theorem exec_reclaimExpired {α : Type} (now : Time)
    (f : Unit → SqlProgram Options Solution α) :
    (SqlxJobRepository.reclaimExpired now >>= f).exec (Session.answer env)
        ⟨committed, some db⟩ =
      (f ()).exec (Session.answer env) ⟨committed, some (db.reclaimed now)⟩ := by
  rw [SqlxJobRepository.reclaimExpired]
  simp only [bind_assoc]
  rw [exec_query_working]
  exact exec_requeueEach env committed db _ f

theorem exec_scoreCandidates {α : Type} (now : Time) (rows : List (JobRow Options Solution))
    (best : Option (ℚ × JobRecord Options Solution))
    (f : Option (ℚ × JobRecord Options Solution) → SqlProgram Options Solution α) :
    (SqlxJobRepository.scoreCandidates now rows best >>= f).exec (Session.answer env)
        ⟨committed, some db⟩ =
      (f (bestCandidate now db.lastServedAt (rows.map recordFromRow) best)).exec
        (Session.answer env) ⟨committed, some db⟩ := by
  induction rows generalizing best with
  | nil => rfl
  | cons row rest ih =>
      rw [SqlxJobRepository.scoreCandidates]
      simp only [bind_assoc, SqlxJobRepository.lastServed]
      rw [exec_query_working]
      exact ih _

@[simp] theorem exec_selectCandidate {α : Type} (requestedJobId : Option JobId) (now : Time)
    (f : Option (JobRecord Options Solution) → SqlProgram Options Solution α) :
    (SqlxJobRepository.selectCandidate requestedJobId now >>= f).exec (Session.answer env)
        ⟨committed, some db⟩ =
      (f (db.candidate requestedJobId now)).exec (Session.answer env)
        ⟨committed, some db⟩ := by
  cases requestedJobId with
  | some id =>
      simp only [SqlxJobRepository.selectCandidate, bind_assoc]
      rw [exec_query_working]
      rfl
  | none =>
      simp only [SqlxJobRepository.selectCandidate, bind_assoc]
      rw [exec_query_working]
      simp only [Database.run, exec_scoreCandidates]
      rfl

/-- The record with its donation, as `get` and `find_by_object_key` return it. -/
def Database.record (db : Database Options Solution) (row : JobRow Options Solution) :
    JobRecord Options Solution :=
  { recordFromRow row with
    validationDonation := (db.donations.find? row.id).map DonationRow.donation }

theorem exec_withDonation (row : Option (JobRow Options Solution)) :
    (SqlxJobRepository.withDonation row).exec (Session.answer env) ⟨db, none⟩ =
      (⟨db, none⟩, .ok (row.map db.record)) := by
  cases row with
  | none => rfl
  | some row =>
      simp only [SqlxJobRepository.withDonation, SqlxJobRepository.validationDonation,
        bind_assoc]
      rw [exec_query_committed]
      rfl

theorem exec_findByObjectKey (objectKey : String) :
    (SqlxJobRepository.findByObjectKey objectKey).exec (Session.answer env) ⟨db, none⟩ =
      (⟨db, none⟩,
        .ok ((db.jobs.rows.find? fun row => row.objectKey = objectKey).map db.record)) := by
  rw [SqlxJobRepository.findByObjectKey, exec_query_committed]
  simp only [Database.run, exec_withDonation]

end Programs

/-! ## The calls -/

/-- The program of a call on an SQL backend. -/
def RepositoryCall.sqlProgram (dialect : SqlDialect) :
    (call : RepositoryCall Options Solution) → SqlProgram Options Solution call.Result
  | .enqueue job => SqlxJobRepository.enqueue job
  | .get id => SqlxJobRepository.get id
  | .findByObjectKey objectKey => SqlxJobRepository.findByObjectKey objectKey
  | .claim requestedJobId leaseSeconds =>
      SqlxJobRepository.claim dialect requestedJobId leaseSeconds
  | .heartbeat id leaseToken leaseSeconds =>
      SqlxJobRepository.heartbeat id leaseToken leaseSeconds
  | .inputKey id leaseToken => SqlxJobRepository.inputKey id leaseToken
  | .complete id leaseToken solution error =>
      SqlxJobRepository.complete id leaseToken solution error
  | .donateValidation id donation => SqlxJobRepository.donateValidation id donation
  | .pendingNotifications limit => SqlxJobRepository.pendingNotifications limit
  | .markNotificationDelivered id => SqlxJobRepository.markNotificationDelivered id

section Specifications

variable (env : CallEnvironment) (db : Database Options Solution) (dialect : SqlDialect)

/-- What a claim does: it reclaims, and then finds no candidate, panics on the
expiry, or leases the candidate out. -/
theorem atomically_claim (requestedJobId : Option JobId) (leaseSeconds : UInt64) :
    atomically env (SqlxJobRepository.claim dialect requestedJobId leaseSeconds) db =
      match (db.reclaimed env.now).candidate requestedJobId env.now with
      | none => (db.reclaimed env.now, .ok none)
      | some job =>
          match leaseExpiresAt env.now leaseSeconds with
          | none => (db, .error leaseOverflow)
          | some expires =>
              ((db.reclaimed env.now).granted job.id job.owner env.now env.token expires,
                .ok (some
                  { jobId := job.id
                    leaseToken := env.token
                    leaseExpiresAt := expires
                    originalFilename := job.originalFilename
                    options := job.options })) := by
  have hbegin : ∀ f : Unit → SqlProgram Options Solution (Option (JobLease Options)),
      (SqlxJobRepository.beginClaim dialect >>= f).exec (Session.answer env) ⟨db, none⟩ =
        (f ()).exec (Session.answer env) ⟨db, some db⟩ := by
    intro f
    cases dialect <;> simp [SqlxJobRepository.beginClaim]
  have hlock : ∀ f : Unit → SqlProgram Options Solution (Option (JobLease Options)),
      (SqlxJobRepository.lockSelection dialect >>= f).exec (Session.answer env)
          ⟨db, some db⟩ =
        (f ()).exec (Session.answer env) ⟨db, some db⟩ := by
    intro f
    cases dialect with
    | sqlite => rfl
    | postgres =>
        rw [SqlxJobRepository.lockSelection, exec_query_working]
        rfl
  simp only [atomically, SqlxJobRepository.claim, hbegin, exec_utcNow, hlock,
    exec_reclaimExpired, exec_selectCandidate]
  cases hcandidate : (db.reclaimed env.now).candidate requestedJobId env.now with
  | none => simp
  | some job =>
      obtain ⟨row, hfind, hqueued, _⟩ := Database.candidate_eq_some hcandidate
      simp only [exec_uuidV7]
      cases hexpires : leaseExpiresAt env.now leaseSeconds with
      | none => simp
      | some expires =>
          simp only
          rw [exec_query_working]
          simp only [Database.run, Database.updateJob_affected, hfind, Option.elim_some,
            hqueued, decide_true, if_true]
          rw [exec_query_working]
          simp only [Database.run, exec_commit]
          rfl

theorem atomically_heartbeat (id : JobId) (leaseToken : String) (leaseSeconds : UInt64) :
    atomically env (SqlxJobRepository.heartbeat id leaseToken leaseSeconds) db =
      match leaseExpiresAt env.now leaseSeconds with
      | none => (db, .error leaseOverflow)
      | some expires =>
          ((db.updateJob id (fun row => row.leasedTo leaseToken env.now)
              (fun row => row.extended expires) fun row => row.extended_id expires).1,
            .ok ((db.jobs.find? id).any fun row => row.leasedTo leaseToken env.now)) := by
  simp only [atomically, SqlxJobRepository.heartbeat, exec_utcNow]
  cases leaseExpiresAt env.now leaseSeconds with
  | none => rfl
  | some expires =>
      simp only
      rw [exec_query_committed]
      simp only [Database.run, Database.updateJob_affected]
      cases hfind : db.jobs.find? id with
      | none => simp
      | some row => by_cases hleased : row.leasedTo leaseToken env.now <;> simp [hleased]

theorem atomically_inputKey (id : JobId) (leaseToken : String) :
    atomically env (SqlxJobRepository.inputKey id leaseToken) db =
      (db, .ok (((db.jobs.find? id).filter fun row => row.leasedTo leaseToken env.now).map
        fun row => ((db.donations.find? id).map DonationRow.objectKey).getD row.objectKey)) := by
  have hlast := exec_query_last env db (.selectInputKey id leaseToken env.now)
  simp only [Database.run] at hlast
  simp only [atomically, SqlxJobRepository.inputKey, exec_utcNow]
  exact congrArg (fun step => (step.1.committed, step.2)) hlast

theorem atomically_complete (id : JobId) (leaseToken : String) (solution : Option Solution)
    (error : Option String) :
    atomically env (SqlxJobRepository.complete id leaseToken solution error) db =
      if solution.isNone ∧ error.isNone then
        (db, .error (.bail "worker completion requires a solution or an error"))
      else
        ((db.updateJob id (fun row => row.leasedTo leaseToken env.now)
            (fun row => row.finished (completionStatus solution) env.now solution error)
            fun row => row.finished_id (completionStatus solution) env.now solution error).1,
          .ok ((db.jobs.find? id).any fun row => row.leasedTo leaseToken env.now)) := by
  simp only [atomically, SqlxJobRepository.complete]
  split
  · rfl
  · simp only [exec_utcNow]
    rw [exec_query_committed]
    simp only [Database.run, Database.updateJob_affected]
    cases hfind : db.jobs.find? id with
    | none => simp [completionStatus]
    | some row =>
        by_cases hleased : row.leasedTo leaseToken env.now <;>
          simp [hleased, completionStatus]

theorem atomically_pendingNotifications (limit : ℕ) :
    atomically env (SqlxJobRepository.pendingNotifications limit) db =
      (db.reclaimed env.now, .ok ((db.reclaimed env.now).pending.take limit)) := by
  simp only [atomically, SqlxJobRepository.pendingNotifications, exec_begin, exec_utcNow,
    exec_reclaimExpired]
  rw [exec_query_working]
  simp [Database.run]

theorem atomically_markNotificationDelivered (id : JobId) :
    atomically env (SqlxJobRepository.markNotificationDelivered id) db =
      ({ db with
          outbox := db.outbox.modify (fun row => row.jobId = id)
            fun row => { row with deliveredAt := some env.now } }, .ok ()) := by
  simp only [atomically, SqlxJobRepository.markNotificationDelivered, exec_utcNow]
  rw [exec_query_committed]
  simp [Database.run]

theorem atomically_get (id : JobId) :
    atomically env (SqlxJobRepository.get id) db =
      (db, .ok ((db.jobs.find? id).map db.record)) := by
  simp only [atomically, SqlxJobRepository.get]
  rw [exec_query_committed]
  simp only [Database.run, exec_withDonation]

theorem atomically_findByObjectKey (objectKey : String) :
    atomically env (SqlxJobRepository.findByObjectKey objectKey) db =
      (db, .ok ((db.jobs.rows.find? fun row => row.objectKey = objectKey).map db.record)) := by
  simp only [atomically, exec_findByObjectKey]

theorem atomically_donateValidation (id : JobId) (donation : ValidationDonation) :
    atomically env (SqlxJobRepository.donateValidation id donation) db =
      if (db.jobs.find? id).any fun row => row.status.terminal then
        match db.upsertDonation id donation with
        | .error cause => (db, .error cause)
        | .ok step => (step.1, .ok true)
      else (db, .ok false) := by
  simp only [atomically, SqlxJobRepository.donateValidation, exec_begin]
  rw [exec_query_working]
  simp only [Database.run, Option.any_map]
  split
  · rw [exec_query_working]
    simp only [Database.run]
    cases db.upsertDonation id donation with
    | error cause => rfl
    | ok step => simp
  · simp

theorem atomically_enqueue (job : JobRecord Options Solution) :
    atomically env (SqlxJobRepository.enqueue job) db =
      match db.insertJob (enqueuedRecord job) with
      | .error cause => (db, .error cause)
      | .ok (after, inserted) =>
          if inserted = 0 then
            match db.jobs.rows.find? fun row => row.objectKey = job.objectKey with
            | some row => (db, .ok (db.record row))
            | none =>
                (db,
                  .error (.bail "idempotent SQL enqueue could not find the existing job"))
          else
            match after.outbox.insert? ⟨job.id, none⟩ with
            | none => (db, .error (uniqueViolation "queue_outbox_v2.job_id"))
            | some outbox => ({ after with outbox := outbox }, .ok (enqueuedRecord job)) := by
  simp only [atomically, SqlxJobRepository.enqueue, exec_begin]
  rw [exec_query_working]
  simp only [Database.run]
  cases hinsert : db.insertJob (enqueuedRecord job) with
  | error cause => rfl
  | ok step =>
      obtain ⟨after, inserted⟩ := step
      by_cases hzero : inserted = 0
      · simp only [hzero, if_true, exec_rollback, enqueuedRecord_objectKey]
        rw [Program.exec_bind, exec_findByObjectKey]
        cases db.jobs.rows.find? fun row => row.objectKey = job.objectKey <;> rfl
      · simp only [hzero, if_false]
        rw [exec_query_working]
        simp only [Database.run, enqueuedRecord_id]
        cases after.outbox.insert? ⟨job.id, none⟩ <;> simp

/-- What `enqueue` does: it returns the job that already has the object key,
inserts a new job with its notification, or is refused by a unique index. -/
theorem atomically_enqueue_cases (job : JobRecord Options Solution) :
    (∃ row, (db.jobs.rows.find? fun row => row.objectKey = job.objectKey) = some row ∧
      atomically env (SqlxJobRepository.enqueue job) db = (db, .ok (db.record row))) ∨
    (∃ jobs outbox,
      (∀ row ∈ db.jobs.rows, row.objectKey ≠ job.objectKey) ∧
      (∀ row ∈ db.jobs.rows, row.astrometryId ≠ astrometryIdForJob job.id) ∧
      db.jobs.insert? (JobRow.inserted (enqueuedRecord job)) = some jobs ∧
      db.outbox.insert? ⟨job.id, none⟩ = some outbox ∧
      atomically env (SqlxJobRepository.enqueue job) db =
        ({ db with jobs := jobs, outbox := outbox }, .ok (enqueuedRecord job))) ∨
    ∃ index, atomically env (SqlxJobRepository.enqueue job) db =
      (db, .error (uniqueViolation index)) := by
  rw [atomically_enqueue]
  unfold Database.insertJob
  by_cases hkey :
      (db.jobs.rows.any fun row => row.objectKey = (enqueuedRecord job).objectKey) = true
  · left
    have hsome : (db.jobs.rows.find? fun row => row.objectKey = job.objectKey).isSome := by
      simp only [List.any_eq_true, decide_eq_true_eq] at hkey
      rw [List.find?_isSome]
      simpa using hkey
    obtain ⟨row, hrow⟩ := Option.isSome_iff_exists.mp hsome
    exact ⟨row, hrow, by simp only [if_pos hkey, if_true, hrow]⟩
  · right
    simp only [if_neg hkey]
    split_ifs with hastrometry
    · exact .inr ⟨_, rfl⟩
    · cases hjobs : db.jobs.insert? (JobRow.inserted (enqueuedRecord job)) with
      | none => exact .inr ⟨_, rfl⟩
      | some jobs =>
          simp only [one_ne_zero, if_false]
          cases houtbox : db.outbox.insert? ⟨job.id, none⟩ with
          | none => exact .inr ⟨_, rfl⟩
          | some outbox =>
              simp only [List.any_eq_true, decide_eq_true_eq, not_exists, not_and]
                at hkey hastrometry
              exact .inl ⟨jobs, outbox, hkey, hastrometry, rfl, rfl, rfl⟩

end Specifications

/-! ## Runs of calls -/

variable (dialect : SqlDialect)

/-- The tables after one invocation. -/
def Invocation.after (invocation : Invocation Options Solution)
    (db : Database Options Solution) : Database Options Solution :=
  (atomically invocation.env (invocation.call.sqlProgram dialect) db).1

/-- The invocation is this call, and executed on these tables it returns this
result. -/
def Invocation.Returns (db : Database Options Solution)
    (invocation : Invocation Options Solution) (call : RepositoryCall Options Solution)
    (result : call.Result) : Prop :=
  invocation.call = call ∧
    (atomically invocation.env (call.sqlProgram dialect) db).2 = .ok result

/-- The tables after a run of calls in this order. -/
def replay : Database Options Solution → List (Invocation Options Solution) →
    Database Options Solution
  | db, [] => db
  | db, invocation :: rest => replay (invocation.after dialect db) rest

theorem replay_append (db : Database Options Solution)
    (first second : List (Invocation Options Solution)) :
    replay dialect db (first ++ second) = replay dialect (replay dialect db first) second := by
  induction first generalizing db with
  | nil => rfl
  | cons invocation rest ih => exact ih (invocation.after dialect db)

/-- What every call preserves holds after every run. -/
theorem replay_preserves (P : Database Options Solution → Prop)
    (hcall : ∀ db invocation, P db → P (Invocation.after dialect invocation db))
    {db : Database Options Solution} (hinitial : P db)
    (calls : List (Invocation Options Solution)) : P (replay dialect db calls) := by
  induction calls generalizing db with
  | nil => exact hinitial
  | cons invocation rest ih => exact ih (hcall db invocation hinitial)

end SeizaServer
