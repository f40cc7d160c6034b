import SeizaServer.QueueContract
import SeizaServer.SqlxCallEffects

/-!
# No job is lost between the SQLx outbox and the queue

Any number of uploads, dispatchers and workers take repository calls and queue
requests in turn, each of which may fail with or without having taken effect,
and every party may stop between two of them.  A job that is not finished has
an open outbox row or a message that is not deleted.
-/

namespace SeizaServer

open Interaction Transition

variable {Options Solution : Type}

section Stores

variable [TimeStore]

/-! ## The system -/

/-- The tables of the job store and the two queues. -/
structure SqlxDeployment (Options Solution : Type) where
  db : Database Options Solution
  queues : SqsQueues

def SqlxDeployment.empty : SqlxDeployment Options Solution := ⟨.empty, []⟩

/-- The call is executed on these tables by itself and returns this result; or
its failure hides whether it was executed. -/
def ServesCall (dialect : SqlDialect) (db : Database Options Solution)
    (call : RepositoryCall Options Solution) (reply : Except Fault call.Result)
    (after : Database Options Solution) : Prop :=
  ∃ env, (after = (atomically env (call.sqlProgram dialect) db).1 ∧
      (reply = (atomically env (call.sqlProgram dialect) db).2 ∨ ∃ cause, reply = .error cause)) ∨
    (after = db ∧ ∃ cause, reply = .error cause)

/-- One request of a party. -/
def SqlxDeployment.Answers (dialect : SqlDialect) (store : SqlxDeployment Options Solution)
    (r : QueueRequest Options Solution) (reply : r.Response)
    (after : SqlxDeployment Options Solution) : Prop :=
  match r, reply with
  | .repository _ call, reply =>
      after.queues = store.queues ∧ ServesCall dialect store.db call reply after.db
  | r, reply => after.db = store.db ∧ store.queues.Serves r reply after.queues

/-- The parties over the deployment.  Messages that name no job may arrive
from elsewhere, and a party may stop for ever. -/
def sqlxDelivery (dialect : SqlDialect) (config : QueueConfig) :
    System (QueueCall Options Solution) (QueueRequest Options Solution) QueueRequest.Response Fault
      QueueCall.Result (SqlxDeployment Options Solution) where
  body := QueueCall.program config
  admits := fun _ _ call => call.Admitted
  answers := fun _ store r reply after => store.Answers dialect r reply after
  halts := fun _ before after => after = before
  environment := fun before after =>
    ∃ queue, after = { before with queues := before.queues.send queue none }

/-! ## The view -/

def sqlxView : QueueView (SqlxDeployment Options Solution) where
  known := fun store id => ∃ row, store.db.jobs.find? id = some row
  terminal := fun store id =>
    ∃ row, store.db.jobs.find? id = some row ∧ row.status.terminal = true
  pending := fun store id =>
    ∃ note, store.db.outbox.find? id = some note ∧ note.deliveredAt = none
  queues := SqlxDeployment.queues

section Calls

variable (dialect : SqlDialect) {db : Database Options Solution} {id : JobId}

/-- An open notification stays open until it is acknowledged. -/
theorem pending_of_call (invocation : Invocation Options Solution)
    (hmark : invocation.call ≠ .markNotificationDelivered id)
    (hpending : ∃ note, db.outbox.find? id = some note ∧ note.deliveredAt = none) :
    ∃ note, (invocation.after dialect db).outbox.find? id = some note ∧
      note.deliveredAt = none := by
  obtain ⟨call, env⟩ := invocation
  have hreclaimed : ∃ note, (db.reclaimed env.now).outbox.find? id = some note ∧
      note.deliveredAt = none := by
    rw [Database.find?_outbox_reclaimed]
    split_ifs
    · exact ⟨_, rfl, rfl⟩
    · exact hpending
  cases call with
  | claim requestedJobId leaseSeconds =>
      simp only [Invocation.after, RepositoryCall.sqlProgram]
      rcases atomically_claim_cases dialect db env requestedJobId leaseSeconds with
        ⟨_, hafter⟩ | ⟨_, hafter⟩ | ⟨row, expires, _, _, _, _, hafter⟩
      · simpa only [hafter] using hreclaimed
      · simpa only [hafter] using hpending
      · rw [hafter]
        exact hreclaimed
  | enqueue job =>
      simp only [Invocation.after, RepositoryCall.sqlProgram]
      rcases atomically_enqueue_cases env db job with ⟨_, _, hafter⟩ |
        ⟨jobs, outbox, _, _, _, hinsert, hafter⟩ | ⟨_, hafter⟩
      · simpa only [hafter] using hpending
      · simp only [hafter, KeyedTable.find?_insert? hinsert]
        by_cases hid : job.id = id
        · exact ⟨⟨job.id, none⟩, if_pos hid, rfl⟩
        · obtain ⟨note, hnote, hopen⟩ := hpending
          exact ⟨note, (if_neg hid).trans hnote, hopen⟩
      · simpa only [hafter] using hpending
  | heartbeat jobId leaseToken leaseSeconds =>
      simp only [Invocation.after, RepositoryCall.sqlProgram, atomically_heartbeat]
      cases leaseExpiresAt env.now leaseSeconds with
      | none => exact hpending
      | some expires => exact hpending
  | complete jobId leaseToken solution error =>
      simp only [Invocation.after, RepositoryCall.sqlProgram, atomically_complete]
      split_ifs <;> exact hpending
  | pendingNotifications limit =>
      simpa only [Invocation.after, RepositoryCall.sqlProgram, atomically_pendingNotifications]
        using hreclaimed
  | donateValidation jobId donation =>
      simp only [Invocation.after, RepositoryCall.sqlProgram, atomically_donateValidation,
        Database.upsertDonation]
      split_ifs <;> exact hpending
  | get jobId =>
      simpa only [Invocation.after, RepositoryCall.sqlProgram, atomically_get] using hpending
  | findByObjectKey objectKey =>
      simpa only [Invocation.after, RepositoryCall.sqlProgram, atomically_findByObjectKey]
        using hpending
  | inputKey jobId leaseToken =>
      simpa only [Invocation.after, RepositoryCall.sqlProgram, atomically_inputKey] using hpending
  | markNotificationDelivered jobId =>
      simp only [Invocation.after, RepositoryCall.sqlProgram,
        atomically_markNotificationDelivered, KeyedTable.find?_modify]
      obtain ⟨note, hnote, hopen⟩ := hpending
      have hne : ¬ note.jobId = jobId := by
        rintro rfl
        exact hmark (congrArg RepositoryCall.markNotificationDelivered
          (KeyedTable.key_of_find? hnote))
      refine ⟨note, ?_, hopen⟩
      simp [hnote, hne]

/-- A job is stored together with an open notification. -/
theorem pending_of_enqueued (invocation : Invocation Options Solution)
    {row : JobRow Options Solution} (hnone : db.jobs.find? id = none)
    (hfind : (invocation.after dialect db).jobs.find? id = some row) :
    ∃ note, (invocation.after dialect db).outbox.find? id = some note ∧
      note.deliveredAt = none := by
  obtain ⟨call, env⟩ := invocation
  obtain ⟨job, rfl, hid, _⟩ := enqueued_of_call dialect ⟨call, env⟩ hnone hfind
  simp only [Invocation.after, RepositoryCall.sqlProgram] at hfind ⊢
  rcases atomically_enqueue_cases env db job with ⟨_, _, hafter⟩ |
    ⟨jobs, outbox, _, _, _, hinsert, hafter⟩ | ⟨_, hafter⟩
  · rw [hafter, hnone] at hfind
    cases hfind
  · simp only [hafter, KeyedTable.find?_insert? hinsert]
    exact ⟨⟨job.id, none⟩, if_pos hid, rfl⟩
  · rw [hafter, hnone] at hfind
    cases hfind

omit [TimeStore] in
/-- Every selected notification is one of an existing job. -/
theorem Database.exists_of_mem_pending (hmem : id ∈ db.pending) :
    ∃ row, db.jobs.find? id = some row := by
  simp only [Database.pending, List.mem_map, List.mem_insertionSort, List.mem_filterMap] at hmem
  obtain ⟨⟨jobId, createdAt⟩, ⟨note, _, hnote⟩, rfl⟩ := hmem
  split_ifs at hnote
  obtain ⟨row, hrow, heq⟩ := Option.map_eq_some_iff.mp hnote
  cases heq
  exact ⟨row, hrow⟩

/-- An accepted completion leaves a finished job. -/
theorem terminal_of_complete (env : CallEnvironment) {token : String} {solution : Option Solution}
    {error : Option String}
    (haccepted :
      (atomically env (SqlxJobRepository.complete id token solution error) db).2 = .ok true) :
    ∃ row, (atomically env (SqlxJobRepository.complete id token solution error) db).1.jobs.find?
      id = some row ∧ row.status.terminal = true := by
  rw [atomically_complete] at haccepted ⊢
  by_cases hnone : solution.isNone = true ∧ error.isNone = true
  · simp [hnone] at haccepted
  · simp only [hnone, if_false, Except.ok.injEq] at haccepted ⊢
    obtain ⟨row, hfind, hleased⟩ := (Option.any_eq_true _ _).mp haccepted
    refine ⟨row.finished (completionStatus solution) env.now solution error, ?_, ?_⟩
    · rw [Database.find?_updateJob, hfind]
      simp [hleased]
    · cases solution <;> rfl

end Calls

/-! ## The deployment keeps the contract -/

section Deployment

variable {dialect : SqlDialect} {store after : SqlxDeployment Options Solution}

/-- An executed call moves the deployment along the order of the view. -/
theorem evolves_of_call (invocation : Invocation Options Solution)
    (hdb : after.db = invocation.after dialect store.db)
    (hqueues : after.queues = store.queues) : sqlxView.Evolves store after where
  known := by
    rintro id ⟨row, hfind⟩
    obtain ⟨row', hafter, _⟩ := rowEffect_of_call dialect invocation hfind
    exact ⟨row', hdb ▸ hafter⟩
  terminal := by
    rintro id ⟨row, hfind, hterminal⟩
    obtain ⟨row', hafter, heffect⟩ := rowEffect_of_call dialect invocation hfind
    rw [heffect.eq_of_terminal hterminal] at hafter
    exact ⟨row, hdb ▸ hafter, hterminal⟩
  messages := fun position message hmessage =>
    ⟨message, (congrArg (·[position]?) hqueues).trans hmessage, rfl, rfl, id⟩

/-- An executed call loses no job, if only published ones are acknowledged. -/
theorem accounted_of_call (haccounted : sqlxView.Accounted store)
    (invocation : Invocation Options Solution)
    (hguard : ∀ id, invocation.call = .markNotificationDelivered id →
      sqlxView.Published store id)
    (hdb : after.db = invocation.after dialect store.db)
    (hqueues : after.queues = store.queues) : sqlxView.Accounted after := by
  have hevolves : sqlxView.Evolves store after := evolves_of_call invocation hdb hqueues
  have hsame : sqlxView.queues after = sqlxView.queues store := hqueues
  refine ⟨?_, ?_, ?_⟩
  · intro message hmem id hid
    exact hevolves.known id (haccounted.bodies message (hsame ▸ hmem) id hid)
  · intro message hmem hdeleted id hid
    exact hevolves.terminal id (haccounted.deleted message (hsame ▸ hmem) hdeleted id hid)
  · rintro id ⟨row, hfind⟩
    rw [hdb] at hfind
    cases hbefore : store.db.jobs.find? id with
    | none =>
        left
        simp only [sqlxView, hdb]
        exact pending_of_enqueued dialect invocation hbefore hfind
    | some old =>
        by_cases hmark : invocation.call = .markNotificationDelivered id
        · exact .inr (hevolves.published (hguard id hmark))
        · rcases haccounted.notified id ⟨old, hbefore⟩ with hpending | hpublished
          · left
            simp only [sqlxView, hdb]
            exact pending_of_call dialect invocation hmark hpending
          · exact .inr (hevolves.published hpublished)

/-- The result of an executed call tells what it should. -/
theorem tells_of_call {caller : Caller} (call : RepositoryCall Options Solution)
    (env : CallEnvironment) {reply : Except Fault call.Result}
    (hdb : after.db = (atomically env (call.sqlProgram dialect) store.db).1)
    (hreply : reply = (atomically env (call.sqlProgram dialect) store.db).2) :
    sqlxView.Tells store (.repository caller call) reply after := by
  cases call with
  | enqueue job =>
      intro stored hstored
      simp only [RepositoryCall.sqlProgram] at hdb hreply
      rw [hstored] at hreply
      simp only [sqlxView, hdb]
      rcases atomically_enqueue_cases env store.db job with ⟨row, hrow, hresult⟩ |
        ⟨jobs, outbox, _, _, hinsert, _, hresult⟩ | ⟨_, hresult⟩
      · rw [hresult] at hreply ⊢
        cases hreply
        exact ⟨row, KeyedTable.find?_of_mem (List.mem_of_find?_eq_some hrow)⟩
      · rw [hresult] at hreply ⊢
        cases hreply
        refine ⟨JobRow.inserted (enqueuedRecord job), ?_⟩
        rw [KeyedTable.find?_insert? hinsert]
        exact if_pos rfl
      · rw [hresult] at hreply
        cases hreply
  | get id =>
      simp only [RepositoryCall.sqlProgram, atomically_get] at hdb hreply
      constructor
      · rintro job rfl
        obtain ⟨row, hrow, rfl⟩ := Option.map_eq_some_iff.mp (Except.ok.inj hreply).symm
        have hfind : after.db.jobs.find? id = some row := hdb ▸ hrow
        have hid : row.id = id := KeyedTable.key_of_find? hrow
        exact ⟨hid, ⟨row, hfind⟩, fun h => ⟨row, hfind, h⟩⟩
      · rintro rfl ⟨row, hrow⟩
        rw [hrow] at hreply
        cases hreply
  | claim requestedJobId leaseSeconds =>
      cases requestedJobId with
      | none => trivial
      | some id =>
          rintro lease rfl
          simp only [RepositoryCall.sqlProgram] at hreply
          rcases atomically_claim_cases dialect store.db env (some id) leaseSeconds with
            ⟨_, hresult⟩ | ⟨_, hresult⟩ | ⟨row, expires, _, _, hcandidate, _, hresult⟩
          · rw [hresult] at hreply
            cases hreply
          · rw [hresult] at hreply
            cases hreply
          · rw [hresult] at hreply
            cases hreply
            simp only [Database.candidate, Option.map_eq_some_iff, Option.filter_eq_some_iff]
              at hcandidate
            obtain ⟨found, ⟨hfound, _⟩, hrecord⟩ := hcandidate
            have hid : found.id = row.id := congrArg JobRecord.id hrecord
            exact hid.symm.trans (KeyedTable.key_of_find? hfound)
  | complete id leaseToken solution error =>
      rintro rfl
      simp only [sqlxView, hdb]
      exact terminal_of_complete env hreply.symm
  | pendingNotifications limit =>
      rintro ids rfl id hmem
      simp only [RepositoryCall.sqlProgram, atomically_pendingNotifications] at hdb hreply
      cases hreply
      simp only [sqlxView, hdb]
      exact Database.exists_of_mem_pending (List.mem_of_mem_take hmem)
  | _ => trivial

/-- One guarded request of a party. -/
theorem SqlxDeployment.Answers.kept {r : QueueRequest Options Solution} {reply : r.Response}
    (haccounted : sqlxView.Accounted store) (hguard : sqlxView.Guard store r)
    (hanswers : store.Answers dialect r reply after) :
    sqlxView.Accounted after ∧ sqlxView.Evolves store after ∧
      sqlxView.Tells store r reply after := by
  by_cases hrepository : ∃ caller call, r = .repository caller call
  · obtain ⟨caller, call, rfl⟩ := hrepository
    obtain ⟨hqueues, env, ⟨hdb, hresult⟩ | ⟨hdb, cause, rfl⟩⟩ := hanswers
    · have hexecuted : after.db = (⟨call, env⟩ : Invocation Options Solution).after dialect
          store.db := hdb
      refine ⟨accounted_of_call haccounted ⟨call, env⟩ ?_ hexecuted hqueues,
        evolves_of_call ⟨call, env⟩ hexecuted hqueues, ?_⟩
      · rintro id rfl
        exact hguard
      · rcases hresult with hreply | ⟨cause, rfl⟩
        · exact tells_of_call call env hdb hreply
        · exact QueueView.Tells.error call _
    · have hsame : after = store := by
        cases after
        cases store
        cases hdb
        cases hqueues
        rfl
      subst hsame
      exact ⟨haccounted, .refl _, QueueView.Tells.error call _⟩
  · have hdirect : after.db = store.db ∧ store.queues.Serves r reply after.queues := by
      cases r with
      | repository caller call => exact (hrepository ⟨caller, call, rfl⟩).elim
      | _ => exact hanswers
    have hsame : sqlxView.SameJobs store after := by
      constructor <;> intro id <;> simp only [sqlxView, hdirect.1]
    exact haccounted.served hsame (fun caller call h => hrepository ⟨caller, call, h⟩) hguard
      hdirect.2

end Deployment

/-! ## Every run -/

/-- All parties move the deployment along the same order. -/
def sqlxDeliveryDiscipline (dialect : SqlDialect) (config : QueueConfig) :
    Discipline (@sqlxDelivery Options Solution _ dialect config) where
  invariant := sqlxView.Accounted
  rely := fun _ => sqlxView.Evolves
  guarantee := fun _ => sqlxView.Evolves
  guard := fun _ => sqlxView.Guard
  post := fun _ _ _ => True
  rely_refl := fun _ => .refl
  rely_trans := fun _ _ _ _ => .trans
  compatible := fun _ _ _ _ _ h => h
  environment := by
    rintro before after hinv ⟨queue, rfl⟩
    have hsame : sqlxView.SameJobs before { before with queues := before.queues.send queue none } :=
      ⟨fun _ => Iff.rfl, fun _ => Iff.rfl, fun _ => Iff.rfl⟩
    exact ⟨hinv.sent hsame rfl nofun, fun _ => hsame.evolves_of_append rfl⟩
  halts := by
    rintro pid before after hinv rfl
    exact ⟨hinv, fun _ _ => .refl _⟩

/-- A guarded request is answered as the contract of the parties says. -/
theorem sqlxDelivery_asks {dialect : SqlDialect} {config : QueueConfig} (pid : ℕ)
    {r : QueueRequest Options Solution} {store : SqlxDeployment Options Solution}
    (hguard : sqlxView.Guard store r) :
    (Program.ask r : QueueProgram Options Solution r.Response).Obeys
      ((sqlxDeliveryDiscipline dialect config).contract pid)
      ((sqlxView.contract sqlxView.Accounted).answers store r) store := by
  intro later hrely hlater
  refine ⟨hguard.later hrely, ?_⟩
  intro reply after hanswers
  obtain ⟨hafter, hevolves, htells⟩ := hanswers.kept hlater (hguard.later hrely)
  refine ⟨hafter, hevolves, ?_⟩
  intro further hfurther hinvariant
  exact ⟨hinvariant, (hrely.trans hevolves).trans hfurther, (htells.later hfurther).earlier hrely⟩

/-- Every party obeys. -/
theorem sqlxDelivery_obeys {dialect : SqlDialect} {config : QueueConfig} (pid : ℕ)
    {call : QueueCall Options Solution} {store : SqlxDeployment Options Solution}
    (hinv : sqlxView.Accounted store) (hadmitted : call.Admitted) :
    (call.program config).Obeys ((sqlxDeliveryDiscipline dialect config).contract pid)
      (fun _ _ => True) store := by
  have hcareful : (call.program config).Obeys (sqlxView.contract sqlxView.Accounted)
      (fun _ _ => True) store := Careful.program config hadmitted
  rw [← Program.expand_ask (call.program config)]
  refine hcareful.expand ?_ ?_ hinv ?_
  · rfl
  · intro r store hstore hguard
    exact sqlxDelivery_asks pid hguard
  · exact fun _ _ h => h

/-- In every reachable configuration, a job that is neither succeeded nor
failed has an undelivered outbox row or a message that is not deleted. -/
theorem sqlx_queue_delivery {dialect : SqlDialect} {config : QueueConfig}
    {labels : List (Label (QueueCall Options Solution) (QueueRequest Options Solution)
      QueueRequest.Response Fault)}
    {reached : Configuration (QueueCall Options Solution) (QueueRequest Options Solution)
      QueueRequest.Response Fault QueueCall.Result (SqlxDeployment Options Solution)}
    (hrun : Run (sqlxDelivery dialect config).Step (.idle .empty) labels reached)
    {id : JobId} {row : JobRow Options Solution}
    (hfind : reached.store.db.jobs.find? id = some row) (hopen : row.status.terminal = false) :
    (∃ note, reached.store.db.outbox.find? id = some note ∧ note.deliveredAt = none) ∨
      ∃ message ∈ reached.store.queues, message.body = some id ∧ message.deleted = false := by
  have hinitial : sqlxView.Accounted (SqlxDeployment.empty : SqlxDeployment Options Solution) :=
    ⟨nofun, nofun, by rintro id ⟨row, hrow⟩; cases hrow⟩
  have hrespected : (sqlxDeliveryDiscipline dialect config).Respected reached :=
    Discipline.respected_of_run
      (fun pid _ _ hinv hadmitted => sqlxDelivery_obeys pid hinv hadmitted) hinitial hrun
  refine hrespected.1.undeleted ⟨row, hfind⟩ ?_
  rintro ⟨other, hother, hterminal⟩
  rw [hfind] at hother
  cases hother
  rw [hopen] at hterminal
  cases hterminal

end Stores

/-! ### A run on fixed inputs -/

attribute [local instance] TimeStore.bytewise

/-- Every request succeeds; calls read the clock at 0, and a fresh token is
named after its process. -/
def serveDelivery (dialect : SqlDialect) (pid : ℕ) (store : SqlxDeployment Options Solution) :
    (r : QueueRequest Options Solution) → Option (r.Response × SqlxDeployment Options Solution)
  | .repository _ call =>
      let step := atomically ⟨0, "token-" ++ toString pid⟩ (call.sqlProgram dialect) store.db
      some (step.2, { store with db := step.1 })
  | r => (store.queues.serve r).map fun served => (served.1, { store with queues := served.2 })

theorem answers_of_serveDelivery {dialect : SqlDialect} (pid : ℕ)
    (store : SqlxDeployment Options Solution) (r : QueueRequest Options Solution)
    (reply : r.Response) (after : SqlxDeployment Options Solution)
    (hserved : serveDelivery dialect pid store r = some (reply, after)) :
    store.Answers dialect r reply after := by
  have hqueues : ∀ (r : QueueRequest Options Solution) (reply : r.Response),
      ((store.queues.serve r).map fun served =>
        (served.1, ({ store with queues := served.2 } : SqlxDeployment Options Solution))) =
          some (reply, after) →
        after.db = store.db ∧ store.queues.Serves r reply after.queues := by
    intro r reply hreply
    obtain ⟨⟨answer, queues⟩, hanswer, heq⟩ := Option.map_eq_some_iff.mp hreply
    cases heq
    exact ⟨rfl, SqsQueues.serves_of_serve hanswer⟩
  cases r with
  | repository caller call =>
      cases hserved
      exact ⟨rfl, ⟨0, "token-" ++ toString pid⟩, .inl ⟨rfl, .inl rfl⟩⟩
  | _ => exact hqueues _ reply hserved

/-- The upload stops after `enqueue`, the dispatcher publishes, and a worker
stops before its completion. -/
def crashingSchedule : List (Move (QueueCall Unit Unit)) :=
  .start 0 (.enqueueStored sampleUpload) :: List.replicate 3 (.ask 0) ++
    .start 1 (.dispatchOutbox 1) :: List.replicate 4 (.ask 1) ++
    .start 2 (.runSqsWorker (.new 3) [⟨0, .ok ()⟩]) :: List.replicate 3 (.ask 2)

theorem sqlx_queue_delivery_crashes :
    ∃ labels reached,
      Run (@sqlxDelivery Unit Unit _ .sqlite sampleConfig).Step
        (.idle .empty) labels reached ∧
      (∃ row, reached.store.db.jobs.find? 1 = some row ∧ row.status = .solving) ∧
      ((∃ note, reached.store.db.outbox.find? 1 = some note ∧ note.deliveredAt = none) ∨
        ∃ message ∈ reached.store.queues, message.body = some 1 ∧ message.deleted = false) := by
  have hplays : ((Configuration.idle .empty).moves (QueueCall.program sampleConfig)
      (fun _ _ => isParty) (serveDelivery .sqlite) crashingSchedule).any (fun reached =>
        decide ((reached.store.db.jobs.find? 1).map JobRow.status = some .solving)) = true := by
    decide
  simp only [Option.any_eq_true, decide_eq_true_eq] at hplays
  obtain ⟨reached, hmoves, hstatus⟩ := hplays
  obtain ⟨row, hfind, hsolving⟩ := Option.map_eq_some_iff.mp hstatus
  have hadmission : ∀ (pid : ℕ) (store : SqlxDeployment Unit Unit) (call : QueueCall Unit Unit),
      isParty call = true → (sqlxDelivery .sqlite sampleConfig).admits pid store call :=
    fun _ _ _ => QueueCall.admitted_of_isParty
  obtain ⟨labels, hrun⟩ := System.run_of_moves hadmission answers_of_serveDelivery hmoves
  exact ⟨labels, reached, hrun, ⟨row, hfind, hsolving⟩,
    sqlx_queue_delivery hrun hfind (by rw [hsolving]; rfl)⟩

end SeizaServer
