import SeizaServer.LeaseProtocol
import SeizaServer.SqlxAtomicCalls

/-!
# Lease exclusivity of the SQLx repository

Seen from one job, a run of repository calls is a history of the exclusive
lease protocol: every call refines a few protocol events.  Exclusivity of
results, the validity of a holder's token and the permanence of outcomes are
then read off the protocol.
-/

namespace SeizaServer

open LeaseProtocol Transition

variable {Options Solution : Type} [TimeStore]

def JobRow.completion (row : JobRow Options Solution) : Completion Solution :=
  ⟨row.status, row.completedAt, row.solutionJson, row.error⟩

/-- The lease register a row represents. -/
def JobRow.phase (row : JobRow Options Solution) :
    Phase String Time (Completion Solution) :=
  match row.status with
  | .queued => .idle
  | .solving =>
      match row.leaseToken, row.leaseExpiresAt with
      | some token, some expires => .held token expires
      | _, _ => .idle
  | .succeeded => .finished row.completion
  | .failed => .finished row.completion

def Database.phase (db : Database Options Solution) (id : JobId) :
    Phase String Time (Completion Solution) :=
  ((db.jobs.find? id).map JobRow.phase).getD .idle

section Events

variable (dialect : SqlDialect) (env : CallEnvironment) (db : Database Options Solution)
  (id : JobId)

/-- The lapse a reclaiming call performs on the job. -/
def Database.lapseEvents : List (LeaseEvent Solution) :=
  if (db.jobs.find? id).any fun row => row.expiredBy env.now && row.leaseToken.isSome then
    [.lapse env.now]
  else []

/-- The protocol events one call performs on the job, as told by its outcome. -/
def leaseEvents : RepositoryCall Options Solution → List (LeaseEvent Solution)
  | .claim requestedJobId leaseSeconds =>
      match (atomically env (SqlxJobRepository.claim dialect requestedJobId leaseSeconds) db).2 with
      | .ok (some lease) =>
          db.lapseEvents env id ++
            if lease.jobId = id then [.grant lease.leaseToken lease.leaseExpiresAt] else []
      | .ok none => db.lapseEvents env id
      | .error _ => []
  | .heartbeat jobId leaseToken leaseSeconds =>
      match leaseExpiresAt env.now leaseSeconds,
          (atomically env (SqlxJobRepository.heartbeat jobId leaseToken leaseSeconds) db).2 with
      | some expires, .ok true => if jobId = id then [.renew leaseToken expires] else []
      | _, _ => []
  | .inputKey jobId leaseToken =>
      match (atomically env (SqlxJobRepository.inputKey jobId leaseToken) db).2 with
      | .ok (some _) => if jobId = id then [.use leaseToken] else []
      | _ => []
  | .complete jobId leaseToken solution error =>
      match (atomically env
          (SqlxJobRepository.complete jobId leaseToken solution error) db).2 with
      | .ok true =>
          if jobId = id then
            [.finish leaseToken ⟨completionStatus solution, some env.now, solution, error⟩]
          else []
      | _ => []
  | .pendingNotifications _ => db.lapseEvents env id
  | .enqueue _ => []
  | .get _ => []
  | .findByObjectKey _ => []
  | .donateValidation _ _ => []
  | .markNotificationDelivered _ => []

end Events

/-- The history of one job over a run of calls. -/
def leaseHistory (dialect : SqlDialect) (id : JobId) :
    Database Options Solution → List (Invocation Options Solution) →
      List (LeaseEvent Solution)
  | _, [] => []
  | db, invocation :: rest =>
      leaseEvents dialect invocation.env db id invocation.call ++
        leaseHistory dialect id (invocation.after dialect db) rest

/-! ## Every call refines the protocol -/

section Refinement

attribute [local simp] leaseEvents

variable (dialect : SqlDialect) (env : CallEnvironment) (db : Database Options Solution)
  (id : JobId)

omit [TimeStore] in
theorem phase_eq_of_find? {db after : Database Options Solution} {id : JobId}
    (hfind : after.jobs.find? id = db.jobs.find? id) : after.phase id = db.phase id := by
  simp [Database.phase, hfind]

private theorem held_of_leased {row : JobRow Options Solution} {token : String} {now : Time}
    (hleased : row.leasedTo token now = true) :
    ∃ expires, row.leaseExpiresAt = some expires ∧
      (TimeStore.compare expires now).isGT = true ∧ row.leaseToken = some token ∧ row.status = .solving ∧
      row.phase = .held token expires := by
  simp only [JobRow.leasedTo, Bool.and_eq_true, decide_eq_true_eq, Option.any_eq_true] at hleased
  obtain ⟨⟨hstatus, htoken⟩, expires, hexpires, hlt⟩ := hleased
  exact ⟨expires, hexpires, hlt, htoken, hstatus, by
    simp [JobRow.phase, hstatus, htoken, hexpires]⟩

/-- Reclaiming is a lapse of each lease that has run out. -/
theorem allows_reclaimed :
    Allows TimeStore.Lapsed (db.phase id) (db.lapseEvents env id)
      ((db.reclaimed env.now).phase id) := by
  simp only [Database.phase, Database.lapseEvents, Database.find?_jobs_reclaimed]
  cases hfind : db.jobs.find? id with
  | none => simp [run_nil]
  | some row =>
      by_cases hexpired : row.expiredBy env.now = true
      · have hparts := hexpired
        simp only [JobRow.expiredBy, Bool.and_eq_true, decide_eq_true_eq,
          Option.any_eq_true] at hparts
        obtain ⟨hstatus, expires, hexpires, hle⟩ := hparts
        cases htoken : row.leaseToken with
        | none =>
            simp [hexpired, htoken, JobRow.phase, hstatus, JobRow.requeued, run_nil]
        | some token =>
            simp only [Option.any_some, hexpired, htoken, Option.isSome_some, Bool.and_true,
              if_true, Option.map_some, Option.getD_some]
            rw [allows_singleton]
            simp only [JobRow.phase, hstatus, htoken, hexpires, JobRow.requeued]
            exact .lapse token expires env.now hle
      · simp [hexpired, run_nil]

/-- A successful claim grants its job. -/
theorem allows_granted {job : JobRecord Options Solution} {row : JobRow Options Solution}
    (hfind : db.jobs.find? job.id = some row) (hqueued : row.status = .queued)
    (token : String) (expires : Time) :
    Allows TimeStore.Lapsed (db.phase id)
      (if job.id = id then [.grant token expires] else [])
      ((db.granted job.id job.owner env.now token expires).phase id) := by
  have hafter := db.find?_granted job.id job.owner env.now token expires id
  by_cases hjob : job.id = id
  · subst hjob
    simp only [Database.phase, hafter, hfind, Option.map_some, Option.getD_some, hqueued,
      if_true, and_self]
    rw [allows_singleton]
    simp only [JobRow.phase, hqueued, JobRow.taken]
    exact .grant token expires
  · have hne : ¬ id = job.id := fun h => hjob h.symm
    simp [hjob, Database.phase, hafter, hne, run_nil]

theorem allows_claim (requestedJobId : Option JobId) (leaseSeconds : UInt64) :
    Allows TimeStore.Lapsed (db.phase id)
      (leaseEvents dialect env db id (.claim requestedJobId leaseSeconds))
      ((atomically env (SqlxJobRepository.claim dialect requestedJobId leaseSeconds) db).1.phase
        id) := by
  simp only [leaseEvents, atomically_claim]
  cases hcandidate : (db.reclaimed env.now).candidate requestedJobId env.now with
  | none => exact allows_reclaimed env db id
  | some job =>
      obtain ⟨row, hfind, hqueued, _⟩ := Database.candidate_eq_some hcandidate
      cases hexpires : leaseExpiresAt env.now leaseSeconds with
      | none => exact run_nil.mpr rfl
      | some expires =>
          exact run_append.mpr ⟨_, allows_reclaimed env db id,
            allows_granted env (db.reclaimed env.now) id hfind hqueued env.token expires⟩

/-- A conditional update under a lease either is refused and changes nothing,
or acts on a row whose lease is held with that token. -/
theorem allows_updateJob {assign : JobRow Options Solution → JobRow Options Solution}
    (hassign : ∀ row, (assign row).id = row.id) (jobId : JobId) (token : String)
    (event : LeaseEvent Solution)
    (hmoves : ∀ row expires, row.leaseExpiresAt = some expires →
      row.leaseToken = some token → row.status = .solving →
      Moves TimeStore.Lapsed (.held token expires) event (assign row).phase) :
    Allows TimeStore.Lapsed (db.phase id)
      (if (db.jobs.find? jobId).any (fun row => row.leasedTo token env.now) = true then
        if jobId = id then [event] else [] else [])
      ((db.updateJob jobId (fun row => row.leasedTo token env.now) assign hassign).1.phase
        id) := by
  simp only [Database.phase, Database.find?_updateJob]
  by_cases hjob : jobId = id
  · subst hjob
    cases hfind : db.jobs.find? jobId with
    | none => simp [run_nil]
    | some row =>
        by_cases hleased : row.leasedTo token env.now = true
        · obtain ⟨expires, hexpires, _, htoken, hstatus, hphase⟩ := held_of_leased hleased
          simp only [Option.any_some, hleased, if_true, Option.map_some, Option.getD_some,
            and_self]
          rw [allows_singleton, hphase]
          exact hmoves row expires hexpires htoken hstatus
        · simp [hleased, run_nil]
  · have hne : ¬ id = jobId := fun h => hjob h.symm
    simp [hjob, hne, run_nil]

theorem allows_heartbeat (jobId : JobId) (leaseToken : String) (leaseSeconds : UInt64) :
    Allows TimeStore.Lapsed (db.phase id)
      (leaseEvents dialect env db id (.heartbeat jobId leaseToken leaseSeconds))
      ((atomically env (SqlxJobRepository.heartbeat jobId leaseToken leaseSeconds) db).1.phase
        id) := by
  simp only [leaseEvents, atomically_heartbeat]
  cases hexpires : leaseExpiresAt env.now leaseSeconds with
  | none => exact run_nil.mpr rfl
  | some later =>
      have hallows := allows_updateJob env db id
        (fun row => row.extended_id later)
        jobId leaseToken (.renew leaseToken later) (by
          intro row expires _ htoken hstatus
          simp only [JobRow.phase, JobRow.extended, hstatus, htoken]
          exact .renew leaseToken expires later)
      cases hleased : (db.jobs.find? jobId).any fun row => row.leasedTo leaseToken env.now <;>
        simpa [hleased] using hallows

theorem allows_inputKey (jobId : JobId) (leaseToken : String) :
    Allows TimeStore.Lapsed (db.phase id)
      (leaseEvents dialect env db id (.inputKey jobId leaseToken))
      ((atomically env (SqlxJobRepository.inputKey jobId leaseToken) db).1.phase id) := by
  simp only [leaseEvents, atomically_inputKey]
  cases hfind : db.jobs.find? jobId with
  | none => exact run_nil.mpr rfl
  | some row =>
      by_cases hleased : row.leasedTo leaseToken env.now = true
      · obtain ⟨expires, _, _, _, _, hphase⟩ := held_of_leased hleased
        simp only [Option.filter_some, hleased, if_true, Option.map_some]
        by_cases hjob : jobId = id
        · subst hjob
          simp only [if_true, Database.phase, hfind, Option.map_some, Option.getD_some]
          rw [allows_singleton, hphase]
          exact .use leaseToken expires
        · simp [hjob, run_nil]
      · simp [hleased, run_nil]

theorem allows_complete (jobId : JobId) (leaseToken : String) (solution : Option Solution)
    (error : Option String) :
    Allows TimeStore.Lapsed (db.phase id)
      (leaseEvents dialect env db id (.complete jobId leaseToken solution error))
      ((atomically env (SqlxJobRepository.complete jobId leaseToken solution error) db).1.phase
        id) := by
  simp only [leaseEvents, atomically_complete]
  by_cases hnone : solution.isNone = true ∧ error.isNone = true
  · simp only [hnone, and_self, if_true]
    exact run_nil.mpr rfl
  · simp only [hnone, if_false]
    have hallows := allows_updateJob env db id
      (fun row => row.finished_id (completionStatus solution) env.now solution error)
      jobId leaseToken
      (.finish leaseToken ⟨completionStatus solution, some env.now, solution, error⟩) (by
        intro row expires _ _ _
        have hphase :
            (row.finished (completionStatus solution) env.now solution error).phase =
              .finished ⟨completionStatus solution, some env.now, solution, error⟩ := by
          unfold completionStatus
          cases solution <;> rfl
        rw [hphase]
        exact .finish leaseToken expires _)
    cases hleased : (db.jobs.find? jobId).any fun row => row.leasedTo leaseToken env.now <;>
      simpa [hleased] using hallows

/-- The calls that hand out no lease leave the rows of `jobs_v2` which exist
alone. -/
theorem phase_of_enqueue (job : JobRecord Options Solution) :
    (atomically env (SqlxJobRepository.enqueue job) db).1.phase id = db.phase id := by
  rcases atomically_enqueue_cases env db job with ⟨row, _, hafter⟩ |
    ⟨jobs, outbox, _, _, hinsert, _, hafter⟩ | ⟨index, hafter⟩
  · rw [hafter]
  · rw [hafter]
    simp only [Database.phase, KeyedTable.find?_insert? hinsert]
    by_cases hid : job.id = id
    · have hnone : db.jobs.find? id = none := by
        simpa [hid, JobRow.inserted] using KeyedTable.fresh_of_insert? hinsert
      simp [JobRow.inserted, hid, hnone, JobRow.phase]
    · simp [JobRow.inserted, hid]
  · rw [hafter]

theorem jobs_of_donateValidation (jobId : JobId) (donation : ValidationDonation) :
    (atomically env (SqlxJobRepository.donateValidation jobId donation) db).1.jobs =
      db.jobs := by
  rw [atomically_donateValidation]
  unfold Database.upsertDonation
  split_ifs <;> rfl

/-- One call is a step of the protocol on every job. -/
theorem allows_call (invocation : Invocation Options Solution) :
    Allows TimeStore.Lapsed (db.phase id) (leaseEvents dialect invocation.env db id invocation.call)
      ((invocation.after dialect db).phase id) := by
  obtain ⟨call, env⟩ := invocation
  cases call with
  | claim requestedJobId leaseSeconds =>
      exact allows_claim dialect env db id requestedJobId leaseSeconds
  | heartbeat jobId leaseToken leaseSeconds =>
      exact allows_heartbeat dialect env db id jobId leaseToken leaseSeconds
  | inputKey jobId leaseToken => exact allows_inputKey dialect env db id jobId leaseToken
  | complete jobId leaseToken solution error =>
      exact allows_complete dialect env db id jobId leaseToken solution error
  | pendingNotifications limit =>
      simp only [Invocation.after, RepositoryCall.sqlProgram, atomically_pendingNotifications]
      exact allows_reclaimed env db id
  | enqueue job => exact run_nil.mpr (phase_of_enqueue env db id job).symm
  | get jobId =>
      simp only [Invocation.after, RepositoryCall.sqlProgram, atomically_get]
      exact run_nil.mpr rfl
  | findByObjectKey objectKey =>
      simp only [Invocation.after, RepositoryCall.sqlProgram, atomically_findByObjectKey]
      exact run_nil.mpr rfl
  | donateValidation jobId donation =>
      refine run_nil.mpr (phase_eq_of_find? ?_).symm
      exact congrArg (fun jobs => KeyedTable.find? jobs id)
        (jobs_of_donateValidation env db jobId donation)
  | markNotificationDelivered jobId =>
      simp only [Invocation.after, RepositoryCall.sqlProgram,
        atomically_markNotificationDelivered]
      exact run_nil.mpr rfl

/-- Every run of calls is a protocol history of every job. -/
theorem allows_leaseHistory (calls : List (Invocation Options Solution)) :
    Allows TimeStore.Lapsed (db.phase id) (leaseHistory dialect id db calls)
      ((replay dialect db calls).phase id) := by
  induction calls generalizing db with
  | nil => exact run_nil.mpr rfl
  | cons invocation rest ih =>
      exact run_append.mpr ⟨_, allows_call dialect db id invocation, ih _⟩

end Refinement

/-! ## Exclusivity -/

section Exclusivity

variable {dialect : SqlDialect} {db : Database Options Solution} {id : JobId}

theorem leaseHistory_append (first second : List (Invocation Options Solution)) :
    leaseHistory dialect id db (first ++ second) =
      leaseHistory dialect id db first ++
        leaseHistory dialect id (replay dialect db first) second := by
  induction first generalizing db with
  | nil => rfl
  | cons invocation rest ih =>
      simp only [List.cons_append, leaseHistory, replay, ih, List.append_assoc]

/-- The invocation is a heartbeat, an input lookup or a completion for this job
with this token, and it succeeds. -/
def ActsAsHolder (dialect : SqlDialect) (db : Database Options Solution)
    (invocation : Invocation Options Solution) (id : JobId) (token : String) : Prop :=
  (∃ leaseSeconds, invocation.Returns dialect db (.heartbeat id token leaseSeconds) true) ∨
    (∃ objectKey, invocation.Returns dialect db (.inputKey id token) (some objectKey)) ∨
      ∃ solution error, invocation.Returns dialect db (.complete id token solution error) true

/-- The invocation is a completion of this job, and it is accepted. -/
def Completes (dialect : SqlDialect) (db : Database Options Solution)
    (invocation : Invocation Options Solution) (id : JobId) : Prop :=
  ∃ token solution error,
    invocation.Returns dialect db (.complete id token solution error) true

theorem leaseEvents_of_completes {invocation : Invocation Options Solution} {token : String}
    {solution : Option Solution} {error : Option String}
    (hreturns : invocation.Returns dialect db (.complete id token solution error) true) :
    leaseEvents dialect invocation.env db id invocation.call =
      [.finish token
        ⟨completionStatus solution, some invocation.env.now, solution, error⟩] := by
  obtain ⟨hcall, hresult⟩ := hreturns
  simp only [RepositoryCall.sqlProgram] at hresult
  simp [hcall, leaseEvents, hresult]

/-- A successful holder call is one holder event with its token. -/
theorem leaseEvents_of_actsAsHolder {invocation : Invocation Options Solution}
    {token : String} (hacts : ActsAsHolder dialect db invocation id token) :
    ∃ event, leaseEvents dialect invocation.env db id invocation.call = [event] ∧
      event.holderToken = some token := by
  rcases hacts with ⟨leaseSeconds, hcall, hresult⟩ | ⟨objectKey, hcall, hresult⟩ |
    ⟨solution, error, hreturns⟩
  · simp only [RepositoryCall.sqlProgram] at hresult
    cases hexpires : leaseExpiresAt invocation.env.now leaseSeconds with
    | none => simp [atomically_heartbeat, hexpires] at hresult
    | some expires =>
        exact ⟨.renew token expires, by simp [hcall, leaseEvents, hresult, hexpires], rfl⟩
  · simp only [RepositoryCall.sqlProgram] at hresult
    exact ⟨.use token, by simp [hcall, leaseEvents, hresult], rfl⟩
  · exact ⟨_, leaseEvents_of_completes hreturns, rfl⟩

/-- A finish in the history is an accepted completion with that outcome. -/
theorem completes_of_finish_mem {invocation : Invocation Options Solution} {token : String}
    {outcome : Completion Solution}
    (hmem : Event.finish token outcome ∈ leaseEvents dialect invocation.env db id invocation.call) :
    ∃ solution error,
      invocation.Returns dialect db (.complete id token solution error) true ∧
        outcome =
          ⟨completionStatus solution, some invocation.env.now, solution, error⟩ := by
  obtain ⟨call, env⟩ := invocation
  have hlapse : Event.finish token outcome ∉ db.lapseEvents env id := by
    unfold Database.lapseEvents
    split_ifs <;> simp
  cases call with
  | complete jobId leaseToken solution error =>
      simp only [leaseEvents] at hmem
      split at hmem
      next heq =>
        by_cases hjob : jobId = id
        · subst hjob
          simp only [if_true, List.mem_singleton, Event.finish.injEq] at hmem
          obtain ⟨rfl, rfl⟩ := hmem
          exact ⟨solution, error, ⟨rfl, heq⟩, rfl⟩
        · simp [hjob] at hmem
      next => simp at hmem
  | claim requestedJobId leaseSeconds =>
      simp only [leaseEvents] at hmem
      split at hmem
      next =>
        rcases List.mem_append.mp hmem with hfirst | hsecond
        · exact (hlapse hfirst).elim
        · split_ifs at hsecond <;> simp at hsecond
      next => exact (hlapse hmem).elim
      next => simp at hmem
  | heartbeat jobId leaseToken leaseSeconds =>
      simp only [leaseEvents] at hmem
      split at hmem
      next => split_ifs at hmem <;> simp at hmem
      next => simp at hmem
  | inputKey jobId leaseToken =>
      simp only [leaseEvents] at hmem
      split at hmem
      next => split_ifs at hmem <;> simp at hmem
      next => simp at hmem
  | pendingNotifications limit => exact (hlapse hmem).elim
  | enqueue job => simp [leaseEvents] at hmem
  | get jobId => simp [leaseEvents] at hmem
  | findByObjectKey objectKey => simp [leaseEvents] at hmem
  | donateValidation jobId donation => simp [leaseEvents] at hmem
  | markNotificationDelivered jobId => simp [leaseEvents] at hmem

theorem completes_of_finish_mem_leaseHistory {calls : List (Invocation Options Solution)}
    {token : String} {outcome : Completion Solution}
    (hmem : Event.finish token outcome ∈ leaseHistory dialect id db calls) :
    ∃ earlier invocation since solution error,
      calls = earlier ++ invocation :: since ∧
        invocation.Returns dialect (replay dialect db earlier)
          (.complete id token solution error) true ∧
        outcome =
          ⟨completionStatus solution, some invocation.env.now, solution, error⟩ := by
  induction calls generalizing db with
  | nil => simp [leaseHistory] at hmem
  | cons invocation rest ih =>
      rcases List.mem_append.mp hmem with hhead | htail
      · obtain ⟨solution, error, hreturns, houtcome⟩ := completes_of_finish_mem hhead
        exact ⟨[], invocation, rest, solution, error, rfl, hreturns, houtcome⟩
      · obtain ⟨earlier, other, since, solution, error, rfl, hreturns, houtcome⟩ := ih htail
        exact ⟨invocation :: earlier, other, since, solution, error, rfl, hreturns, houtcome⟩

omit [TimeStore] in
private theorem phase_finished_of_terminal {row : JobRow Options Solution}
    (hfind : db.jobs.find? id = some row) (hterminal : row.status.terminal = true) :
    db.phase id = .finished row.completion := by
  cases hstatus : row.status <;>
    simp [hstatus, JobStatus.terminal] at hterminal <;>
    simp [Database.phase, hfind, JobRow.phase, hstatus]

omit [TimeStore] in
private theorem completion_of_phase_finished {outcome : Completion Solution}
    (hphase : db.phase id = .finished outcome) :
    ∃ row, db.jobs.find? id = some row ∧ row.completion = outcome := by
  cases hfind : db.jobs.find? id with
  | none => simp [Database.phase, hfind] at hphase
  | some row =>
      refine ⟨row, rfl, ?_⟩
      simp only [Database.phase, hfind, Option.map_some, Option.getD_some, JobRow.phase] at hphase
      split at hphase
      next => cases hphase
      next => split at hphase <;> cases hphase
      next => exact Phase.finished.inj hphase
      next => exact Phase.finished.inj hphase

variable (dialect id) in
/-- Lease exclusivity over every run of calls from an empty store: at most one
completion of a job is accepted; a holder call succeeds only with the token of
the most recent grant, not reclaimed or completed since; and a finished job
keeps what its one accepted completion wrote. -/
theorem sqlx_lease_exclusivity (calls : List (Invocation Options Solution)) :
    (∀ earlier first between second rest,
      calls = earlier ++ first :: (between ++ second :: rest) →
        Completes dialect (replay dialect .empty earlier) first id →
          ¬ Completes dialect (replay dialect .empty (earlier ++ first :: between)) second id) ∧
    (∀ earlier invocation rest token,
      calls = earlier ++ invocation :: rest →
        ActsAsHolder dialect (replay dialect .empty earlier) invocation id token →
          HeldBy (leaseHistory dialect id .empty earlier) token) ∧
    ∀ earlier rest row,
      calls = earlier ++ rest →
        (replay dialect .empty earlier).jobs.find? id = some row →
          row.status.terminal = true →
            (∃ before invocation since token solution error,
              earlier = before ++ invocation :: since ∧
                invocation.Returns dialect (replay dialect .empty before)
                  (.complete id token solution error) true ∧
                row.completion =
                  ⟨completionStatus solution, some invocation.env.now, solution, error⟩) ∧
            ∃ later, (replay dialect .empty calls).jobs.find? id = some later ∧
              later.completion = row.completion := by
  have hallows : ∀ calls : List (Invocation Options Solution),
      Allows TimeStore.Lapsed .idle (leaseHistory dialect id .empty calls)
        ((replay dialect .empty calls).phase id) := by
    intro calls
    exact allows_leaseHistory dialect .empty id calls
  refine ⟨?_, ?_, ?_⟩
  · rintro earlier first between second rest rfl ⟨_, _, _, hfirst⟩ ⟨_, _, _, hsecond⟩
    have hone := countP_isFinish_le_one (hallows (earlier ++ first :: (between ++ [second])))
    have hsplit : earlier ++ first :: (between ++ [second]) =
        (earlier ++ first :: between) ++ [second] := by simp
    rw [hsplit, leaseHistory_append, leaseHistory_append] at hone
    simp only [leaseHistory, leaseEvents_of_completes hfirst,
      leaseEvents_of_completes hsecond, List.countP_append, List.append_nil] at hone
    simp [Event.isFinish] at hone
  · rintro earlier invocation rest token rfl hacts
    obtain ⟨event, hevents, htoken⟩ := leaseEvents_of_actsAsHolder hacts
    have hrun := hallows (earlier ++ invocation :: rest)
    rw [leaseHistory_append] at hrun
    simp only [leaseHistory, hevents, List.singleton_append] at hrun
    exact heldBy_of_holderToken htoken hrun
  · rintro earlier rest row rfl hfind hterminal
    have hphase := phase_finished_of_terminal hfind hterminal
    have hrun := hallows earlier
    rw [hphase] at hrun
    constructor
    · obtain ⟨past, token, hpast⟩ := finish_mem_of_allows_finished hrun
      have hmem : Event.finish token row.completion ∈ leaseHistory dialect id .empty earlier := by
        simp [hpast]
      obtain ⟨before, invocation, since, solution, error, hsplit, hreturns, houtcome⟩ :=
        completes_of_finish_mem_leaseHistory hmem
      exact ⟨before, invocation, since, token, solution, error, hsplit, hreturns, houtcome⟩
    · have hrest := allows_leaseHistory dialect (replay dialect .empty earlier) id rest
      rw [hphase] at hrest
      obtain ⟨_, hkept⟩ := allows_finished hrest
      rw [replay_append]
      exact completion_of_phase_finished hkept

end Exclusivity

end SeizaServer
