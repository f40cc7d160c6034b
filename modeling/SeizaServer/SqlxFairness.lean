import SeizaServer.SqlxCallEffects

/-!
# Least-recently-served fairness of the SQLx queue

`client_service` records when each owner was last served, and the candidate
loop maximises the elapsed time.  Together they bound how far the service of
one owner can run ahead of another owner that has a job waiting: by the
millisecond to which the score is truncated.
-/

namespace SeizaServer

variable {Options Solution : Type}

section Stores

variable [TimeStore]

/-! ## Scores -/

/-- One millisecond. -/
def millisecond : Time := 10 ^ 6

omit [TimeStore] in
private theorem numMilliseconds_of_nonneg {delta : ℤ} (hdelta : 0 ≤ delta) :
    numMilliseconds delta = delta / 10 ^ 6 :=
  Int.tdiv_eq_ediv_of_nonneg hdelta

omit [TimeStore] in
private theorem numMilliseconds_le {delta : ℤ} (hdelta : delta ≤ 10 ^ 23) :
    numMilliseconds delta ≤ 10 ^ 17 := by
  by_cases hnonneg : 0 ≤ delta
  · rw [numMilliseconds_of_nonneg hnonneg]
    omega
  · have hneg : 0 ≤ (-delta).tdiv (10 ^ 6) := Int.tdiv_nonneg (by omega) (by norm_num)
    rw [Int.neg_tdiv] at hneg
    unfold numMilliseconds
    omega

omit [TimeStore] in
/-- Truncation loses less than a millisecond. -/
private theorem lt_add_of_numMilliseconds_le {first second : ℤ} (hfirst : 0 ≤ first)
    (hsecond : 0 ≤ second) (hle : numMilliseconds second ≤ numMilliseconds first) :
    second < first + 10 ^ 6 := by
  rw [numMilliseconds_of_nonneg hfirst, numMilliseconds_of_nonneg hsecond] at hle
  omega

omit [TimeStore] in
private theorem weight_pos (weight : ℚ) : 0 < max weight (1 / 100) :=
  lt_of_lt_of_le (by norm_num) (le_max_right _ _)

/-- Weights the service accepts lie far below this bound. -/
def queueWeightBound : ℚ := 10 ^ 290

omit [TimeStore] in
/-- Under the bound every served owner scores below an owner never served. -/
theorem candidateScore_lt_unserved {now last : Time} {weight : ℚ}
    (hweight : weight ≤ queueWeightBound) (hlast : dateTimeMin ≤ last)
    (hnow : now ≤ dateTimeMax) :
    candidateScore now (some last) weight < unservedScore := by
  have hdelta : now - last ≤ 10 ^ 23 := by
    have hspan : dateTimeMax - dateTimeMin ≤ 10 ^ 23 := by decide
    linarith
  have hmillis : (numMilliseconds (now - last) : ℚ) ≤ 10 ^ 17 := by
    exact_mod_cast numMilliseconds_le hdelta
  have hclamped : max weight (1 / 100) ≤ 10 ^ 290 :=
    max_le hweight (by decide +kernel)
  have hbound : (10 : ℚ) ^ 17 / 1000 * 10 ^ 290 < unservedScore := by
    unfold unservedScore
    decide +kernel
  refine lt_of_le_of_lt ?_ hbound
  simp only [candidateScore]
  have hscore : (numMilliseconds (now - last) : ℚ) / 1000 ≤ 10 ^ 17 / 1000 := by linarith
  exact mul_le_mul hscore hclamped (weight_pos weight).le (by norm_num)

omit [TimeStore] in
/-- Of two owners served in the past with equal weights, the one with the
higher score was served less than a millisecond after the other. -/
theorem lt_of_candidateScore_le {now first second : Time} {weight : ℚ}
    (hfirst : first ≤ now) (hsecond : second ≤ now)
    (hscore : candidateScore now (some second) weight ≤
      candidateScore now (some first) weight) :
    first - millisecond < second := by
  simp only [candidateScore] at hscore
  have hmillis : (numMilliseconds (now - second) : ℚ) ≤ numMilliseconds (now - first) := by
    have hdiv := le_of_mul_le_mul_right hscore (weight_pos weight)
    linarith
  have hint : numMilliseconds (now - second) ≤ numMilliseconds (now - first) := by
    exact_mod_cast hmillis
  have hgap := lt_add_of_numMilliseconds_le (sub_nonneg.mpr hfirst) (sub_nonneg.mpr hsecond) hint
  simp only [millisecond]
  linarith

/-! ## Who was served when -/

/-- The owner of the job a call leased out. -/
def servedOwner (dialect : SqlDialect) (db : Database Options Solution)
    (invocation : Invocation Options Solution) : Option String :=
  (claimedJob dialect db invocation).bind fun id => (db.jobs.find? id).map JobRow.owner

/-- When the owner was last served during a run, starting from what was known
before. -/
def lastService (dialect : SqlDialect) (owner : String) :
    Database Options Solution → List (Invocation Options Solution) → Option Time → Option Time
  | _, [], current => current
  | db, invocation :: rest, current =>
      lastService dialect owner (invocation.after dialect db) rest
        (if servedOwner dialect db invocation = some owner then some invocation.env.now
        else current)

/-- The clock readings of the claims of a run. -/
def claimReadings (calls : List (Invocation Options Solution)) : List Time :=
  calls.filterMap fun invocation =>
    match invocation.call with
    | .claim _ _ => some invocation.env.now
    | _ => none

section Service

variable {dialect : SqlDialect} {db : Database Options Solution} {owner : String}

theorem lastService_append (first second : List (Invocation Options Solution))
    (current : Option Time) :
    lastService dialect owner db (first ++ second) current =
      lastService dialect owner (replay dialect db first) second
        (lastService dialect owner db first current) := by
  induction first generalizing db current with
  | nil => rfl
  | cons invocation rest ih => exact ih _

theorem claim_of_servedOwner {invocation : Invocation Options Solution}
    (hserved : servedOwner dialect db invocation = some owner) :
    ∃ requestedJobId leaseSeconds, invocation.call = .claim requestedJobId leaseSeconds := by
  obtain ⟨call, env⟩ := invocation
  cases call with
  | claim requestedJobId leaseSeconds => exact ⟨requestedJobId, leaseSeconds, rfl⟩
  | _ => simp [servedOwner, claimedJob] at hserved

theorem mem_claimReadings_of_servedOwner {invocation : Invocation Options Solution}
    (hserved : servedOwner dialect db invocation = some owner)
    {calls : List (Invocation Options Solution)} (hmem : invocation ∈ calls) :
    invocation.env.now ∈ claimReadings calls := by
  obtain ⟨requestedJobId, leaseSeconds, hcall⟩ := claim_of_servedOwner hserved
  exact List.mem_filterMap.mpr ⟨invocation, hmem, by simp [hcall]⟩

/-- A service recorded during a run was a claim of that run. -/
theorem lastService_eq_some {calls : List (Invocation Options Solution)} {time : Time}
    {current : Option Time}
    (hservice : lastService dialect owner db calls current = some time) :
    (current = some time ∧
      ∀ past invocation future, calls = past ++ invocation :: future →
        servedOwner dialect (replay dialect db past) invocation ≠ some owner) ∨
    ∃ past invocation future, calls = past ++ invocation :: future ∧
      servedOwner dialect (replay dialect db past) invocation = some owner ∧
      invocation.env.now = time := by
  induction calls generalizing db current with
  | nil => exact .inl ⟨hservice, by intro past invocation future hsplit; simp at hsplit⟩
  | cons head rest ih =>
      simp only [lastService] at hservice
      rcases ih hservice with ⟨hcurrent, hnever⟩ | ⟨past, invocation, future, rfl, hserved, htime⟩
      · by_cases hhead : servedOwner dialect db head = some owner
        · rw [if_pos hhead] at hcurrent
          exact .inr ⟨[], head, rest, rfl, hhead, Option.some.inj hcurrent⟩
        · rw [if_neg hhead] at hcurrent
          refine .inl ⟨hcurrent, ?_⟩
          intro past invocation future hsplit
          cases past with
          | nil =>
              obtain ⟨rfl, rfl⟩ := List.cons.inj hsplit
              exact hhead
          | cons other past =>
              obtain ⟨rfl, hrest⟩ := List.cons.inj hsplit
              exact hnever past invocation future hrest
      · exact .inr ⟨head :: past, invocation, future, rfl, hserved, htime⟩

theorem lastService_mem {calls : List (Invocation Options Solution)} {time : Time}
    (hservice : lastService dialect owner db calls none = some time) :
    time ∈ claimReadings calls := by
  rcases lastService_eq_some hservice with ⟨hnone, _⟩ | ⟨past, invocation, future, rfl, hserved, rfl⟩
  · cases hnone
  · exact mem_claimReadings_of_servedOwner hserved (by simp)

/-- Only a successful claim writes `client_service`, and it writes the clock
reading of the claim for the owner of the leased job. -/
theorem lastServedAt_after (invocation : Invocation Options Solution) :
    (invocation.after dialect db).lastServedAt owner =
      if servedOwner dialect db invocation = some owner then some invocation.env.now
      else db.lastServedAt owner := by
  obtain ⟨call, env⟩ := invocation
  cases call with
  | claim requestedJobId leaseSeconds =>
      simp only [Invocation.after, RepositoryCall.sqlProgram, servedOwner, claimedJob]
      rcases atomically_claim_cases dialect db env requestedJobId leaseSeconds with
        ⟨_, hclaim⟩ | ⟨_, hclaim⟩ | ⟨row, expires, hfind, _, _, _, hclaim⟩
      · simp [hclaim, Database.lastServedAt]
      · simp [hclaim]
      · obtain ⟨old, hold, hsubmission⟩ := Database.find?_of_reclaimed hfind
        have howner : old.owner = row.owner :=
          (congrArg JobRow.owner hsubmission.symm : old.submission.owner = row.submission.owner)
        simp only [hclaim, Option.map_some, Option.bind_some, hold, howner, Option.some.injEq,
          Database.lastServedAt, Database.granted, KeyedTable.find?_upsert]
        by_cases hsame : row.owner = owner
        · simp only [if_pos hsame]
          cases hclient : (db.reclaimed env.now).clientService.find? owner <;> rfl
        · simp only [if_neg hsame]
          simp
  | heartbeat id leaseToken leaseSeconds =>
      simp only [Invocation.after, RepositoryCall.sqlProgram, atomically_heartbeat, servedOwner,
        claimedJob, Option.bind_none, reduceCtorEq, if_false]
      cases leaseExpiresAt env.now leaseSeconds <;> rfl
  | complete id leaseToken solution error =>
      simp only [Invocation.after, RepositoryCall.sqlProgram, atomically_complete, servedOwner,
        claimedJob, Option.bind_none, reduceCtorEq, if_false]
      split_ifs <;> rfl
  | pendingNotifications limit =>
      simp [Invocation.after, RepositoryCall.sqlProgram, atomically_pendingNotifications,
        servedOwner, claimedJob, Database.lastServedAt]
  | enqueue job =>
      simp only [Invocation.after, RepositoryCall.sqlProgram, servedOwner, claimedJob,
        Option.bind_none, reduceCtorEq, if_false]
      rcases atomically_enqueue_cases env db job with ⟨_, _, hafter⟩ |
        ⟨jobs, outbox, _, _, _, _, hafter⟩ | ⟨_, hafter⟩
      · rw [hafter]
      · rw [hafter]
        rfl
      · rw [hafter]
  | donateValidation id donation =>
      simp only [Invocation.after, RepositoryCall.sqlProgram, atomically_donateValidation,
        Database.upsertDonation, servedOwner, claimedJob, Option.bind_none, reduceCtorEq,
        if_false]
      split_ifs <;> rfl
  | get id =>
      simp [Invocation.after, RepositoryCall.sqlProgram, atomically_get, servedOwner, claimedJob]
  | findByObjectKey objectKey =>
      simp [Invocation.after, RepositoryCall.sqlProgram, atomically_findByObjectKey, servedOwner,
        claimedJob]
  | inputKey id leaseToken =>
      simp [Invocation.after, RepositoryCall.sqlProgram, atomically_inputKey, servedOwner,
        claimedJob]
  | markNotificationDelivered id =>
      simp [Invocation.after, RepositoryCall.sqlProgram, atomically_markNotificationDelivered,
        servedOwner, claimedJob, Database.lastServedAt]

/-- `client_service` is the record of the services of the run. -/
theorem lastServedAt_replay (calls : List (Invocation Options Solution)) :
    (replay dialect db calls).lastServedAt owner =
      lastService dialect owner db calls (db.lastServedAt owner) := by
  induction calls generalizing db with
  | nil => rfl
  | cons invocation rest ih =>
      simp only [replay, lastService, ih, lastServedAt_after]

end Service

/-! ## Fairness of one claim -/

section Claim

variable {dialect : SqlDialect} {db : Database Options Solution}
  {invocation : Invocation Options Solution} {leaseSeconds : UInt64}
  {served waiting : JobRow Options Solution}

/-- The invocation is a `claim(None)` that leases out this row. -/
def HandsOut (dialect : SqlDialect) (db : Database Options Solution)
    (invocation : Invocation Options Solution) (row : JobRow Options Solution) : Prop :=
  ∃ leaseSeconds lease,
    invocation.Returns dialect db (.claim none leaseSeconds) (some lease) ∧
      db.jobs.find? lease.jobId = some row

theorem HandsOut.servedOwner (hhands : HandsOut dialect db invocation served) :
    servedOwner dialect db invocation = some served.owner := by
  obtain ⟨leaseSeconds, lease, ⟨hcall, hresult⟩, hfind⟩ := hhands
  simp only [RepositoryCall.sqlProgram] at hresult
  simp [SeizaServer.servedOwner, claimedJob, hcall, hresult, hfind]

/-- The job that is handed out outranks every queued job. -/
theorem HandsOut.outranks (hhands : HandsOut dialect db invocation served)
    (hwaiting : waiting ∈ db.jobs.rows) (hqueued : waiting.status = .queued) :
    Outranks
      (candidateScore invocation.env.now (db.lastServedAt served.owner) served.queueWeight,
        recordFromRow served.submission)
      (candidateScore invocation.env.now (db.lastServedAt waiting.owner) waiting.queueWeight,
        recordFromRow waiting) := by
  obtain ⟨leaseSeconds, lease, ⟨hcall, hresult⟩, hfind⟩ := hhands
  obtain ⟨call, env⟩ := invocation
  subst hcall
  simp only [RepositoryCall.sqlProgram] at hresult
  rcases atomically_claim_cases dialect db env none leaseSeconds with
    ⟨_, hclaim⟩ | ⟨_, hclaim⟩ | ⟨row, expires, hrow, _, hcandidate, _, hclaim⟩
  · rw [hclaim] at hresult
    cases hresult
  · rw [hclaim] at hresult
    cases hresult
  · rw [hclaim] at hresult
    have hlease := Option.some.inj (Except.ok.inj hresult)
    rw [← hlease] at hfind
    obtain ⟨old, hold, hsubmission⟩ := Database.find?_of_reclaimed hrow
    rw [hfind] at hold
    rw [← Option.some.inj hold] at hsubmission
    simp only [Database.candidate, Option.map_eq_some_iff] at hcandidate
    obtain ⟨chosen, hchosen, hrecord⟩ := hcandidate
    obtain ⟨horigin, _, houtranks⟩ := bestCandidate_spec _ _ _ _ hchosen
    have hqueuedRow : waiting ∈ (db.reclaimed env.now).queuedJobs :=
      Database.mem_queuedJobs.mpr
        ⟨Database.find?_reclaimed_of_queued (KeyedTable.find?_of_mem hwaiting) hqueued, hqueued⟩
    have hbest := houtranks (recordFromRow waiting) (List.mem_map_of_mem hqueuedRow)
    have hlast : ∀ owner, (db.reclaimed env.now).lastServedAt owner = db.lastServedAt owner := by
      intro owner
      simp [Database.lastServedAt]
    rcases horigin with hnone | ⟨job, _, hjob⟩
    · cases hnone
    · rw [hjob] at hrecord hbest
      simp only at hrecord
      rw [hrecord] at hbest
      have howner : row.owner = served.owner :=
        (congrArg JobRow.owner hsubmission : row.submission.owner = served.submission.owner)
      have hweight : row.queueWeight = served.queueWeight :=
        (congrArg JobRow.queueWeight hsubmission :
          row.submission.queueWeight = served.submission.queueWeight)
      have hcreated : row.createdAt = served.createdAt :=
        (congrArg JobRow.createdAt hsubmission :
          row.submission.createdAt = served.submission.createdAt)
      simpa only [Outranks, recordFromRow, hlast, howner, hweight, hcreated,
        JobRow.submission] using hbest

end Claim

/-! ## Fairness of runs -/

section Fairness

variable {dialect : SqlDialect} {weight : ℚ} {calls : List (Invocation Options Solution)}

/-- The runs the guarantee is about: equal weights within the bound, and claims
that read a nondecreasing clock. -/
structure FairConditions (weight : ℚ) (calls : List (Invocation Options Solution)) : Prop where
  equalWeights : ∀ invocation ∈ calls, ∀ job, invocation.call = .enqueue job →
    job.queueWeight = weight
  bounded : weight ≤ queueWeightBound
  nondecreasing : (claimReadings calls).Pairwise (· ≤ ·)
  inRange : ∀ time ∈ claimReadings calls, dateTimeMin ≤ time ∧ time ≤ dateTimeMax

theorem FairConditions.queueWeight_eq (hfair : FairConditions weight calls)
    {earlier rest : List (Invocation Options Solution)} (hcalls : calls = earlier ++ rest)
    {row : JobRow Options Solution}
    (hmem : row ∈ (replay dialect .empty earlier).jobs.rows) : row.queueWeight = weight := by
  have hall : ∀ id row, (replay dialect (.empty : Database Options Solution) earlier).jobs.find?
      id = some row → row.queueWeight = weight := by
    refine submission_replay dialect (fun row => row.queueWeight = weight) ?_ ?_
      (by intro id row hfind; cases hfind)
    · intro old new hsubmission hold
      exact (congrArg JobRow.queueWeight hsubmission :
        new.submission.queueWeight = old.submission.queueWeight).trans hold
    · intro invocation hinvocation job hcall
      exact hfair.equalWeights invocation (by simp [hcalls, hinvocation]) job hcall
  exact hall row.id row (KeyedTable.find?_of_mem hmem)

theorem FairConditions.le_now (hfair : FairConditions weight calls)
    {earlier rest : List (Invocation Options Solution)}
    {invocation : Invocation Options Solution} (hcalls : calls = earlier ++ invocation :: rest)
    {owner : String} (hserved : servedOwner dialect (replay dialect .empty earlier) invocation =
      some owner)
    {time : Time} (htime : time ∈ claimReadings earlier) : time ≤ invocation.env.now := by
  have hpairwise := hfair.nondecreasing
  simp only [hcalls, claimReadings, List.filterMap_append] at hpairwise
  exact (List.pairwise_append.mp hpairwise).2.2 time htime _
    (mem_claimReadings_of_servedOwner hserved List.mem_cons_self)

/-- What one hand-out guarantees to every owner with a job waiting. -/
theorem fair_of_handsOut (hfair : FairConditions weight calls)
    {earlier rest : List (Invocation Options Solution)}
    {invocation : Invocation Options Solution} (hcalls : calls = earlier ++ invocation :: rest)
    {served waiting : JobRow Options Solution}
    (hhands : HandsOut dialect (replay dialect .empty earlier) invocation served)
    (hwaiting : waiting ∈ (replay dialect .empty earlier).jobs.rows)
    (hqueued : waiting.status = .queued) :
    (waiting.owner = served.owner → served.createdAt ≤ waiting.createdAt) ∧
    ∀ previous, lastService dialect served.owner .empty earlier none = some previous →
      ∃ time, lastService dialect waiting.owner .empty earlier none = some time ∧
        previous - millisecond < time := by
  have hservedMem : served ∈ (replay dialect .empty earlier).jobs.rows := by
    obtain ⟨_, _, _, hfind⟩ := hhands
    exact KeyedTable.mem_of_find? hfind
  have hrank := hhands.outranks hwaiting hqueued
  have hlast : ∀ owner, (replay dialect (.empty : Database Options Solution) earlier).lastServedAt
      owner = lastService dialect owner .empty earlier none :=
    fun owner => lastServedAt_replay earlier
  rw [hlast, hlast, hfair.queueWeight_eq hcalls hservedMem,
    hfair.queueWeight_eq hcalls hwaiting] at hrank
  constructor
  · intro howner
    rw [howner] at hrank
    rcases hrank with hlt | ⟨_, hle⟩
    · exact (lt_irrefl _ hlt).elim
    · exact hle
  · intro previous hprevious
    rw [hprevious] at hrank
    have hscore : candidateScore invocation.env.now
          (lastService dialect waiting.owner .empty earlier none) weight ≤
        candidateScore invocation.env.now (some previous) weight := by
      rcases hrank with hlt | ⟨heq, _⟩
      · exact hlt.le
      · exact heq.le
    have hpreviousMem := lastService_mem hprevious
    have hnowMem : invocation.env.now ∈ claimReadings calls := by
      rw [hcalls]
      exact mem_claimReadings_of_servedOwner hhands.servedOwner (by simp)
    have hsub : ∀ time ∈ claimReadings earlier, time ∈ claimReadings calls := by
      intro time htime
      simp only [hcalls, claimReadings, List.filterMap_append]
      exact List.mem_append_left _ htime
    cases hservice : lastService dialect waiting.owner .empty earlier none with
    | none =>
        rw [hservice] at hscore
        have hlt := candidateScore_lt_unserved hfair.bounded
          (hfair.inRange previous (hsub previous hpreviousMem)).1
          (hfair.inRange _ hnowMem).2
        exact (lt_irrefl _ (lt_of_le_of_lt hscore hlt)).elim
    | some time =>
        rw [hservice] at hscore
        exact ⟨time, rfl, lt_of_candidateScore_le
          (hfair.le_now hcalls hhands.servedOwner hpreviousMem)
          (hfair.le_now hcalls hhands.servedOwner (lastService_mem hservice)) hscore⟩

/-- Once an owner was served in a run, its last service is not earlier. -/
theorem lastService_of_served {owner : String} (hfair : FairConditions weight calls)
    {earlier between rest : List (Invocation Options Solution)}
    {first second : Invocation Options Solution}
    (hcalls : calls = earlier ++ first :: (between ++ second :: rest))
    (hfirst : servedOwner dialect (replay dialect .empty earlier) first = some owner) :
    ∃ time, lastService dialect owner .empty (earlier ++ first :: between) none = some time ∧
      first.env.now ≤ time := by
  rw [lastService_append]
  simp only [lastService, if_pos hfirst]
  cases hservice : lastService dialect owner
      (first.after dialect (replay dialect .empty earlier)) between (some first.env.now) with
  | none =>
      have hsome : ∀ (calls : List (Invocation Options Solution))
          (db : Database Options Solution) (time : Time),
          lastService dialect owner db calls (some time) ≠ none := by
        intro calls
        induction calls with
        | nil => exact fun _ _ => nofun
        | cons invocation rest ih =>
            intro db time
            simp only [lastService]
            split_ifs
            · exact ih _ _
            · exact ih _ _
      exact (hsome _ _ _ hservice).elim
  | some time =>
      refine ⟨time, rfl, ?_⟩
      rcases lastService_eq_some hservice with ⟨hcurrent, _⟩ |
        ⟨past, invocation, future, hbetween, hserved, htime⟩
      · exact (Option.some.inj hcurrent).le
      · rw [← htime]
        have hsplit : calls =
            (earlier ++ first :: past) ++ invocation :: (future ++ second :: rest) := by
          simp [hcalls, hbetween]
        have hstate : servedOwner dialect (replay dialect .empty (earlier ++ first :: past))
            invocation = some owner := by
          rw [replay_append]
          exact hserved
        refine hfair.le_now hsplit hstate ?_
        exact mem_claimReadings_of_servedOwner hfirst (by simp)

/-- Fairness over every run with equal weights: a hand-out follows the creation
order of its owner's jobs, an owner never served goes first, and an owner with
a job waiting was served later than a millisecond before the previous service
of the owner served now.  So once a waiting owner has gone unserved for a
millisecond, a backlog delays it by at most one hand-out. -/
theorem sqlx_fairness (hfair : FairConditions weight calls) :
    (∀ earlier invocation rest served waiting,
      calls = earlier ++ invocation :: rest →
        HandsOut dialect (replay dialect .empty earlier) invocation served →
          waiting ∈ (replay dialect .empty earlier).jobs.rows →
            waiting.status = .queued →
              (waiting.owner = served.owner → served.createdAt ≤ waiting.createdAt) ∧
              (lastService dialect waiting.owner .empty earlier none = none →
                lastService dialect served.owner .empty earlier none = none) ∧
              ∀ previous,
                lastService dialect served.owner .empty earlier none = some previous →
                  ∃ time, lastService dialect waiting.owner .empty earlier none = some time ∧
                    previous - millisecond < time) ∧
    ∀ earlier first between second rest served waiting,
      calls = earlier ++ first :: (between ++ second :: rest) →
        servedOwner dialect (replay dialect .empty earlier) first = some served.owner →
          HandsOut dialect (replay dialect .empty (earlier ++ first :: between)) second
              served →
            waiting ∈ (replay dialect .empty (earlier ++ first :: between)).jobs.rows →
              waiting.status = .queued →
                (∀ time, lastService dialect waiting.owner .empty earlier none = some time →
                  time + millisecond ≤ first.env.now) →
                  ∃ past invocation future,
                    first :: between = past ++ invocation :: future ∧
                      servedOwner dialect (replay dialect .empty (earlier ++ past))
                        invocation = some waiting.owner := by
  refine ⟨?_, ?_⟩
  · intro earlier invocation rest served waiting hcalls hhands hwaiting hqueued
    obtain ⟨hcreated, hrecent⟩ := fair_of_handsOut hfair hcalls hhands hwaiting hqueued
    refine ⟨hcreated, ?_, hrecent⟩
    intro hnone
    cases hservice : lastService dialect served.owner .empty earlier none with
    | none => rfl
    | some previous =>
        obtain ⟨time, htime, _⟩ := hrecent previous hservice
        rw [hnone] at htime
        cases htime
  · intro earlier first between second rest served waiting hcalls hfirst hhands hwaiting
      hqueued hunserved
    have hsplit : calls = (earlier ++ first :: between) ++ second :: rest := by simp [hcalls]
    obtain ⟨_, hrecent⟩ := fair_of_handsOut hfair hsplit hhands hwaiting hqueued
    obtain ⟨previous, hprevious, hle⟩ := lastService_of_served hfair hcalls hfirst
    obtain ⟨time, htime, hlt⟩ := hrecent previous hprevious
    rw [lastService_append] at htime
    rcases lastService_eq_some htime with ⟨hcurrent, _⟩ |
      ⟨past, invocation, future, hbetween, hserved, _⟩
    · have hgap := hunserved time hcurrent
      linarith
    · exact ⟨past, invocation, future, hbetween, by rw [replay_append]; exact hserved⟩

end Fairness

end Stores

/-! ### Runs on fixed inputs -/

attribute [local instance] TimeStore.bytewise

def sampleEnqueue (id : JobId) (owner objectKey : String) (queueWeight : ℚ)
    (createdAt : Time) : Invocation Unit Unit :=
  ⟨.enqueue (sampleJob id owner objectKey queueWeight createdAt), ⟨createdAt, ""⟩⟩

def sampleClaim (now : Time) (token : String) : Invocation Unit Unit :=
  ⟨.claim none 300, ⟨now, token⟩⟩

/-- The owners served by the calls of a run, one entry for each call. -/
def servedOwners (dialect : SqlDialect) :
    Database Unit Unit → List (Invocation Unit Unit) → List (Option String)
  | _, [] => []
  | db, invocation :: rest =>
      servedOwner dialect db invocation :: servedOwners dialect (invocation.after dialect db) rest

/-- Owner `b` is served at 100 ms and keeps a second job waiting; owner `a` is
served at 100.1 ms and again at 100.2 ms. -/
def backlogRun : List (Invocation Unit Unit) :=
  [sampleEnqueue 1 "b" "b/1" 1 1, sampleEnqueue 2 "a" "a/1" 1 2, sampleEnqueue 3 "a" "a/2" 1 3,
    sampleEnqueue 4 "b" "b/2" 1 4, sampleClaim 100000000 "first",
    sampleClaim 100100000 "second", sampleClaim 100200000 "third"]

/-- With this weight one elapsed second outscores an owner never served. -/
def heavyRun : List (Invocation Unit Unit) :=
  [sampleEnqueue 1 "a" "a/1" (10 ^ 308) 1, sampleEnqueue 2 "a" "a/2" (10 ^ 308) 2,
    sampleEnqueue 3 "b" "b/1" (10 ^ 308) 3, sampleClaim 1000000000 "first",
    sampleClaim 2000000000 "second"]

private theorem fairConditions_backlogRun : FairConditions 1 backlogRun where
  equalWeights := by
    intro invocation hmem job hcall
    simp only [backlogRun, List.mem_cons, List.not_mem_nil, or_false] at hmem
    rcases hmem with rfl | rfl | rfl | rfl | rfl | rfl | rfl <;> cases hcall <;> rfl
  bounded := by decide +kernel
  nondecreasing := by decide
  inRange := by decide

/-- Within a millisecond two hand-outs of one owner pass a waiting owner, and
above the weight bound an owner never served is passed over. -/
theorem sqlx_fairness_counterexample :
    (FairConditions 1 backlogRun ∧
      servedOwners .sqlite .empty backlogRun =
        [none, none, none, none, some "b", some "a", some "a"] ∧
      ∀ n < 8, 4 ≤ n →
        ((replay .sqlite .empty (backlogRun.take n)).jobs.find? 4).map
          (fun row => (row.owner, row.status)) = some ("b", .queued)) ∧
    (∀ invocation ∈ heavyRun, ∀ job, invocation.call = .enqueue job →
      job.queueWeight = 10 ^ 308) ∧
    (claimReadings heavyRun).Pairwise (· ≤ ·) ∧
    servedOwners .sqlite .empty heavyRun = [none, none, none, some "a", some "a"] ∧
    ∀ n < 6, 3 ≤ n →
      ((replay .sqlite .empty (heavyRun.take n)).jobs.find? 3).map
        (fun row => (row.owner, row.status)) = some ("b", .queued) := by
  refine ⟨⟨fairConditions_backlogRun, by decide +kernel, by decide +kernel⟩, ?_, by decide,
    by decide +kernel, by decide +kernel⟩
  intro invocation hmem job hcall
  simp only [heavyRun, List.mem_cons, List.not_mem_nil, or_false] at hmem
  rcases hmem with rfl | rfl | rfl | rfl | rfl <;> cases hcall <;> rfl

/-- In the run above `b` was served no more than a millisecond before the first
service of `a`, as the guarantee says. -/
theorem sqlx_fairness_backlogRun :
    ∃ time, lastService .sqlite "b" .empty (backlogRun.take 6) none = some time ∧
      100100000 - millisecond < time :=
  ((@sqlx_fairness Unit Unit _ .sqlite 1 backlogRun fairConditions_backlogRun).1
    (backlogRun.take 6) (sampleClaim 100200000 "third") []
    (JobRow.inserted (enqueuedRecord (sampleJob 3 "a" "a/2" 1 3)))
    (JobRow.inserted (enqueuedRecord (sampleJob 4 "b" "b/2" 1 4))) rfl
    ⟨300, ⟨3, "third", 300100200000, "sky.fits", ()⟩, ⟨rfl, by decide +kernel⟩,
      by decide +kernel⟩
    (by decide +kernel) rfl).2.2 100100000 (by decide +kernel)

end SeizaServer
