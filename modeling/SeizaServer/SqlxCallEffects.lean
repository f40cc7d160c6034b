import SeizaServer.SqlxAtomicCalls

/-!
# What one call can do to one row

Every call leaves a row alone or changes it in one of five ways.  Rows appear
only through `enqueue` and never disappear.
-/

namespace SeizaServer

variable {Options Solution : Type} [TimeStore]

/-- The changes a call with this clock and token makes to a row. -/
inductive RowEffect (env : CallEnvironment) :
    JobRow Options Solution → JobRow Options Solution → Prop where
  | kept (row : JobRow Options Solution) : RowEffect env row row
  | requeued (row : JobRow Options Solution) (hexpired : row.expiredBy env.now = true) :
      RowEffect env row row.requeued
  | taken (row : JobRow Options Solution) (expires : Time) (hqueued : row.status = .queued) :
      RowEffect env row (row.taken env.now env.token expires)
  | retaken (row : JobRow Options Solution) (expires : Time)
      (hexpired : row.expiredBy env.now = true) :
      RowEffect env row (row.requeued.taken env.now env.token expires)
  | extended (row : JobRow Options Solution) (token : String) (expires : Time)
      (hleased : row.leasedTo token env.now = true) :
      RowEffect env row (row.extended expires)
  | finished (row : JobRow Options Solution) (token : String) (solution : Option Solution)
      (error : Option String) (hleased : row.leasedTo token env.now = true)
      (hresult : ¬ (solution.isNone ∧ error.isNone)) :
      RowEffect env row (row.finished (completionStatus solution) env.now solution error)

/-- The row as it was inserted. -/
def JobRow.submission (row : JobRow Options Solution) : JobRow Options Solution :=
  { row with
    status := .queued
    startedAt := none
    completedAt := none
    solutionJson := none
    error := none
    leaseToken := none
    leaseExpiresAt := none
    attempts := 0 }

namespace RowEffect

variable {env : CallEnvironment} {row row' : JobRow Options Solution}

/-- The columns written by `enqueue` never change. -/
theorem submission_eq (heffect : RowEffect env row row') :
    row'.submission = row.submission := by
  cases heffect <;> rfl

theorem queueWeight_eq (heffect : RowEffect env row row') :
    row'.queueWeight = row.queueWeight :=
  (congrArg JobRow.queueWeight heffect.submission_eq : row'.submission.queueWeight = row.submission.queueWeight)

private theorem solving_of_expiredBy {now : Time} (hexpired : row.expiredBy now = true) :
    row.status = .solving := by
  simp only [JobRow.expiredBy, Bool.and_eq_true, decide_eq_true_eq] at hexpired
  exact hexpired.1

private theorem solving_of_leasedTo {token : String} {now : Time}
    (hleased : row.leasedTo token now = true) : row.status = .solving := by
  simp only [JobRow.leasedTo, Bool.and_eq_true, decide_eq_true_eq] at hleased
  exact hleased.1.1

/-- A finished job is never touched again. -/
theorem eq_of_terminal (heffect : RowEffect env row row')
    (hterminal : row.status.terminal = true) : row' = row := by
  cases heffect with
  | kept => rfl
  | requeued hexpired =>
      rw [solving_of_expiredBy hexpired] at hterminal
      cases hterminal
  | taken expires hqueued =>
      rw [hqueued] at hterminal
      cases hterminal
  | retaken expires hexpired =>
      rw [solving_of_expiredBy hexpired] at hterminal
      cases hterminal
  | extended token expires hleased =>
      rw [solving_of_leasedTo hleased] at hterminal
      cases hterminal
  | finished token solution error hleased hresult =>
      rw [solving_of_leasedTo hleased] at hterminal
      cases hterminal

end RowEffect

section Effects

variable (dialect : SqlDialect) {db : Database Options Solution} {id : JobId}
  {row : JobRow Options Solution}

private theorem effect_updateJob {env : CallEnvironment} (jobId : JobId) (token : String)
    {assign : JobRow Options Solution → JobRow Options Solution}
    (hassign : ∀ row, (assign row).id = row.id)
    (heffect : ∀ row : JobRow Options Solution, row.leasedTo token env.now = true →
      RowEffect env row (assign row))
    (hfind : db.jobs.find? id = some row) :
    ∃ row', (db.updateJob jobId (fun row => row.leasedTo token env.now) assign
        hassign).1.jobs.find? id = some row' ∧ RowEffect env row row' := by
  rw [Database.find?_updateJob, hfind, Option.map_some]
  refine ⟨_, rfl, ?_⟩
  split_ifs with hcond
  · exact heffect row hcond.2
  · exact .kept row

private theorem effect_reclaimed {env : CallEnvironment}
    (hfind : db.jobs.find? id = some row) :
    ∃ row', (db.reclaimed env.now).jobs.find? id = some row' ∧ RowEffect env row row' := by
  rw [Database.find?_jobs_reclaimed, hfind, Option.map_some]
  refine ⟨_, rfl, ?_⟩
  split_ifs with hexpired
  · exact .requeued row hexpired
  · exact .kept row

private theorem effect_granted {env : CallEnvironment} {jobId : JobId} {owner : String}
    {expires : Time} (hfind : db.jobs.find? id = some row) :
    ∃ row', ((db.reclaimed env.now).granted jobId owner env.now env.token expires).jobs.find? id =
      some row' ∧ RowEffect env row row' := by
  rw [Database.find?_granted, Database.find?_jobs_reclaimed, hfind, Option.map_some,
    Option.map_some]
  refine ⟨_, rfl, ?_⟩
  by_cases hexpired : row.expiredBy env.now = true
  · simp only [if_pos hexpired]
    split_ifs
    · exact .retaken row expires hexpired
    · exact .requeued row hexpired
  · simp only [if_neg hexpired]
    split_ifs with hcond
    · exact .taken row expires hcond.2
    · exact .kept row

/-- Every call maps a row to a row along one of the effects. -/
theorem rowEffect_of_call (invocation : Invocation Options Solution)
    (hfind : db.jobs.find? id = some row) :
    ∃ row', (invocation.after dialect db).jobs.find? id = some row' ∧
      RowEffect invocation.env row row' := by
  obtain ⟨call, env⟩ := invocation
  have hkept : ∃ row', db.jobs.find? id = some row' ∧ RowEffect env row row' :=
    ⟨row, hfind, .kept row⟩
  cases call with
  | claim requestedJobId leaseSeconds =>
      simp only [Invocation.after, RepositoryCall.sqlProgram, atomically_claim]
      cases (db.reclaimed env.now).candidate requestedJobId env.now with
      | none => exact effect_reclaimed hfind
      | some job =>
          cases leaseExpiresAt env.now leaseSeconds with
          | none => exact hkept
          | some expires => exact effect_granted hfind
  | heartbeat jobId leaseToken leaseSeconds =>
      simp only [Invocation.after, RepositoryCall.sqlProgram, atomically_heartbeat]
      cases leaseExpiresAt env.now leaseSeconds with
      | none => exact hkept
      | some expires =>
          exact effect_updateJob jobId leaseToken (fun row => row.extended_id expires)
            (fun row hleased => .extended row leaseToken expires hleased) hfind
  | complete jobId leaseToken solution error =>
      simp only [Invocation.after, RepositoryCall.sqlProgram, atomically_complete]
      by_cases hnone : solution.isNone = true ∧ error.isNone = true
      · simpa only [hnone, and_self, if_true] using hkept
      · simp only [hnone, if_false]
        exact effect_updateJob jobId leaseToken
          (fun row => row.finished_id (completionStatus solution) env.now solution error)
          (fun row hleased => .finished row leaseToken solution error hleased hnone) hfind
  | pendingNotifications limit =>
      simp only [Invocation.after, RepositoryCall.sqlProgram, atomically_pendingNotifications]
      exact effect_reclaimed hfind
  | enqueue job =>
      simp only [Invocation.after, RepositoryCall.sqlProgram]
      rcases atomically_enqueue_cases env db job with ⟨_, _, hafter⟩ |
        ⟨jobs, outbox, _, _, hinsert, _, hafter⟩ | ⟨_, hafter⟩
      · simpa only [hafter] using hkept
      · have hne : job.id ≠ id := by
          rintro rfl
          have hfresh : db.jobs.find? job.id = none := KeyedTable.fresh_of_insert? hinsert
          rw [hfind] at hfresh
          cases hfresh
        refine ⟨row, ?_, .kept row⟩
        rw [hafter]
        exact (KeyedTable.find?_insert? hinsert id).trans ((if_neg hne).trans hfind)
      · simpa only [hafter] using hkept
  | donateValidation jobId donation =>
      simp only [Invocation.after, RepositoryCall.sqlProgram, atomically_donateValidation,
        Database.upsertDonation]
      split_ifs <;> exact hkept
  | get jobId =>
      simpa only [Invocation.after, RepositoryCall.sqlProgram, atomically_get] using hkept
  | findByObjectKey objectKey =>
      simpa only [Invocation.after, RepositoryCall.sqlProgram, atomically_findByObjectKey]
        using hkept
  | inputKey jobId leaseToken =>
      simpa only [Invocation.after, RepositoryCall.sqlProgram, atomically_inputKey] using hkept
  | markNotificationDelivered jobId =>
      simpa only [Invocation.after, RepositoryCall.sqlProgram,
        atomically_markNotificationDelivered] using hkept

omit [TimeStore] in
private theorem updateJob_none {jobId : JobId} {condition : JobRow Options Solution → Bool}
    {assign : JobRow Options Solution → JobRow Options Solution}
    (hassign : ∀ row, (assign row).id = row.id) (hfind : db.jobs.find? id = none) :
    (db.updateJob jobId condition assign hassign).1.jobs.find? id = none := by
  rw [Database.find?_updateJob, hfind, Option.map_none]

/-- A row that was not there before the call was inserted by `enqueue`. -/
theorem enqueued_of_call (invocation : Invocation Options Solution)
    (hnone : db.jobs.find? id = none)
    (hfind : (invocation.after dialect db).jobs.find? id = some row) :
    ∃ job, invocation.call = .enqueue job ∧ job.id = id ∧
      row = JobRow.inserted (enqueuedRecord job) := by
  obtain ⟨call, env⟩ := invocation
  have habsurd : db.jobs.find? id ≠ some row := by
    rw [hnone]
    exact nofun
  cases call with
  | enqueue job =>
      simp only [Invocation.after, RepositoryCall.sqlProgram] at hfind
      rcases atomically_enqueue_cases env db job with ⟨_, _, hafter⟩ |
        ⟨jobs, outbox, _, _, hinsert, _, hafter⟩ | ⟨_, hafter⟩
      · rw [hafter] at hfind
        exact (habsurd hfind).elim
      · rw [hafter] at hfind
        have hinserted := (KeyedTable.find?_insert? hinsert id).symm.trans hfind
        by_cases hid : job.id = id
        · exact ⟨job, rfl, hid, (Option.some.inj ((if_pos hid).symm.trans hinserted)).symm⟩
        · exact (habsurd ((if_neg hid).symm.trans hinserted)).elim
      · rw [hafter] at hfind
        exact (habsurd hfind).elim
  | claim requestedJobId leaseSeconds =>
      simp only [Invocation.after, RepositoryCall.sqlProgram, atomically_claim] at hfind
      cases hcandidate : (db.reclaimed env.now).candidate requestedJobId env.now with
      | none => simp [hcandidate, hnone] at hfind
      | some job =>
          cases hexpires : leaseExpiresAt env.now leaseSeconds with
          | none => simp [hcandidate, hexpires, hnone] at hfind
          | some expires =>
              simp [hcandidate, hexpires, Database.find?_granted, hnone] at hfind
  | heartbeat jobId leaseToken leaseSeconds =>
      simp only [Invocation.after, RepositoryCall.sqlProgram, atomically_heartbeat] at hfind
      cases hexpires : leaseExpiresAt env.now leaseSeconds with
      | none => simp [hexpires, hnone] at hfind
      | some expires =>
          simp only [hexpires] at hfind
          rw [updateJob_none (fun row => row.extended_id expires) hnone] at hfind
          cases hfind
  | complete jobId leaseToken solution error =>
      simp only [Invocation.after, RepositoryCall.sqlProgram, atomically_complete] at hfind
      by_cases hresult : solution.isNone = true ∧ error.isNone = true
      · simp only [hresult, and_self, if_true] at hfind
        exact (habsurd hfind).elim
      · simp only [hresult, if_false] at hfind
        rw [updateJob_none
          (fun row => row.finished_id (completionStatus solution) env.now solution error)
          hnone] at hfind
        cases hfind
  | pendingNotifications limit =>
      simp [Invocation.after, RepositoryCall.sqlProgram, atomically_pendingNotifications, hnone]
        at hfind
  | donateValidation jobId donation =>
      simp only [Invocation.after, RepositoryCall.sqlProgram, atomically_donateValidation,
        Database.upsertDonation] at hfind
      split_ifs at hfind <;> exact (habsurd hfind).elim
  | get jobId =>
      simp only [Invocation.after, RepositoryCall.sqlProgram, atomically_get] at hfind
      exact (habsurd hfind).elim
  | findByObjectKey objectKey =>
      simp only [Invocation.after, RepositoryCall.sqlProgram, atomically_findByObjectKey]
        at hfind
      exact (habsurd hfind).elim
  | inputKey jobId leaseToken =>
      simp only [Invocation.after, RepositoryCall.sqlProgram, atomically_inputKey] at hfind
      exact (habsurd hfind).elim
  | markNotificationDelivered jobId =>
      simp only [Invocation.after, RepositoryCall.sqlProgram,
        atomically_markNotificationDelivered] at hfind
      exact (habsurd hfind).elim

/-- What holds of every inserted row and depends on the submission only holds
of every row of every reachable state. -/
theorem submission_replay (P : JobRow Options Solution → Prop)
    (hsubmission : ∀ row row' : JobRow Options Solution,
      row'.submission = row.submission → P row → P row')
    {calls : List (Invocation Options Solution)}
    (henqueue : ∀ invocation ∈ calls, ∀ job, invocation.call = .enqueue job →
      P (JobRow.inserted (enqueuedRecord job)))
    (hinitial : ∀ id row, db.jobs.find? id = some row → P row) :
    ∀ id row, (replay dialect db calls).jobs.find? id = some row → P row := by
  induction calls generalizing db with
  | nil => exact hinitial
  | cons invocation rest ih =>
      refine ih (fun other hmem => henqueue other (List.mem_cons_of_mem _ hmem)) ?_
      intro id row hfind
      cases hbefore : db.jobs.find? id with
      | none =>
          obtain ⟨job, hcall, _, rfl⟩ := enqueued_of_call dialect invocation hbefore hfind
          exact henqueue invocation List.mem_cons_self job hcall
      | some old =>
          obtain ⟨row', hafter, heffect⟩ := rowEffect_of_call dialect invocation hbefore
          rw [hfind] at hafter
          rw [Option.some.inj hafter]
          exact hsubmission old row' heffect.submission_eq (hinitial id old hbefore)

end Effects

/-! ## Claims -/

/-- The job a call leased out, if it did. -/
def claimedJob (dialect : SqlDialect) (db : Database Options Solution)
    (invocation : Invocation Options Solution) : Option JobId :=
  match invocation.call with
  | .claim requestedJobId leaseSeconds =>
      match (atomically invocation.env
          (SqlxJobRepository.claim dialect requestedJobId leaseSeconds) db).2 with
      | .ok lease => lease.map JobLease.jobId
      | .error _ => none
  | _ => none

section Claims

variable (dialect : SqlDialect) (db : Database Options Solution)

theorem atomically_claim_cases (env : CallEnvironment) (requestedJobId : Option JobId)
    (leaseSeconds : UInt64) :
    ((db.reclaimed env.now).candidate requestedJobId env.now = none ∧
      atomically env (SqlxJobRepository.claim dialect requestedJobId leaseSeconds) db =
        (db.reclaimed env.now, .ok none)) ∨
    (leaseExpiresAt env.now leaseSeconds = none ∧
      atomically env (SqlxJobRepository.claim dialect requestedJobId leaseSeconds) db =
        (db, .error leaseOverflow)) ∨
    ∃ row expires,
      (db.reclaimed env.now).jobs.find? row.id = some row ∧ row.status = .queued ∧
        (db.reclaimed env.now).candidate requestedJobId env.now = some (recordFromRow row) ∧
        leaseExpiresAt env.now leaseSeconds = some expires ∧
        atomically env (SqlxJobRepository.claim dialect requestedJobId leaseSeconds) db =
          ((db.reclaimed env.now).granted row.id row.owner env.now env.token expires,
            .ok (some
              { jobId := row.id
                leaseToken := env.token
                leaseExpiresAt := expires
                originalFilename := row.originalFilename
                options := row.optionsJson })) := by
  rw [atomically_claim]
  cases hcandidate : (db.reclaimed env.now).candidate requestedJobId env.now with
  | none => exact .inl ⟨rfl, rfl⟩
  | some job =>
      obtain ⟨row, hfind, hqueued, rfl⟩ := Database.candidate_eq_some hcandidate
      cases hexpires : leaseExpiresAt env.now leaseSeconds with
      | none => exact .inr (.inl ⟨rfl, rfl⟩)
      | some expires => exact .inr (.inr ⟨row, expires, hfind, hqueued, rfl, rfl, rfl⟩)

/-- A row that is queued stays queued through the reclaiming of a call, and one
that is queued afterwards has the same submission as before. -/
theorem Database.find?_of_reclaimed {db : Database Options Solution} {now : Time} {id : JobId}
    {row : JobRow Options Solution} (hfind : (db.reclaimed now).jobs.find? id = some row) :
    ∃ old, db.jobs.find? id = some old ∧ row.submission = old.submission := by
  rw [Database.find?_jobs_reclaimed, Option.map_eq_some_iff] at hfind
  obtain ⟨old, hold, rfl⟩ := hfind
  refine ⟨old, hold, ?_⟩
  split_ifs <;> rfl

theorem Database.find?_reclaimed_of_queued {db : Database Options Solution} {now : Time}
    {id : JobId} {row : JobRow Options Solution} (hfind : db.jobs.find? id = some row)
    (hqueued : row.status = .queued) : (db.reclaimed now).jobs.find? id = some row := by
  have hlive : row.expiredBy now = false := by simp [JobRow.expiredBy, hqueued]
  rw [Database.find?_jobs_reclaimed, hfind, Option.map_some, hlive]
  rfl

end Claims

end SeizaServer
