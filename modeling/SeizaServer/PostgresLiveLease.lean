import SeizaServer.PostgresReadCommitted

/-!
# Live leases on PostgreSQL

A lease whose expiry the clock has not reached is never taken from its holder,
as long as every reclaiming `UPDATE` meets a row that still satisfies the
`SELECT` which chose it, and the texts of instants are ordered as the instants.
The statement text does not recheck the expiry, and the last section shows what
happens then.
-/

namespace SeizaServer

open Interaction Transition

variable {Options Solution : Type}

section Stores

variable [TimeStore]

/-! ## The leasing calls follow the rules -/

open PostgresState

/-- The system in which every reclaiming `UPDATE` rechecks the expiry, before the
year 10000. -/
def postgresRechecking : System (RepositoryCall Options Solution)
    (SqlRequest Options Solution) SqlRequest.Response Fault RepositoryCall.Result
    (PostgresState Options Solution) :=
  postgres.restrict ReclaimRechecks

/-- The clock moves forward, and nobody else touches the transaction of a
process. -/
def postgresDiscipline : Discipline (@postgresRechecking Options Solution _) where
  invariant := LockInvariant
  rely := fun pid store later =>
    store.clock ≤ later.clock ∧
      later.transactions.find? pid = store.transactions.find? pid
  guarantee := LeavesOthers
  guard := fun pid store r => store.Permits pid r
  post := fun _ _ _ => True
  rely_refl := fun _ _ => ⟨le_refl _, rfl⟩
  rely_trans := fun _ _ _ _ hfirst hsecond =>
    ⟨hfirst.1.trans hsecond.1, hsecond.2.trans hfirst.2⟩
  compatible := fun pid other _ _ hne hleaves =>
    ⟨hleaves.1.ge, hleaves.2 other fun h => hne h.symm⟩
  environment := by
    rintro before after hinv ⟨clock, hclock, rfl⟩
    exact ⟨hinv.tick hclock, fun _ => ⟨hclock, rfl⟩⟩
  halts := by
    rintro pid before after hinv rfl
    refine ⟨hinv.ended pid, fun other hne => ⟨le_refl _, ?_⟩⟩
    simp only [PostgresState.ended, KeyedTable.find?_erase]
    exact if_neg fun h => hne h.symm

/-- From this state on, every request of the program is permitted. -/
def Follows {α : Type} (pid : ℕ) (program : SqlProgram Options Solution α)
    (store : PostgresState Options Solution) : Prop :=
  program.Obeys (postgresDiscipline.contract pid) (fun _ _ => True) store

/-- The process has an open transaction that has selected the expired jobs. -/
def Selected (pid : ℕ) (store : PostgresState Options Solution) : Prop :=
  ∃ transaction now, store.transactions.find? pid = some transaction ∧
    transaction.selectedAt = some now

namespace Follows

variable {α : Type} {pid : ℕ} {store : PostgresState Options Solution}

theorem done (value : α) : Follows pid (.done value : SqlProgram Options Solution α) store :=
  fun _ _ _ => trivial

theorem fault (cause : Fault) :
    Follows pid (.fault cause : SqlProgram Options Solution α) store :=
  trivial

/-- A request is followed up from wherever the others may have moved the store
in the meantime. -/
theorem request {r : SqlRequest Options Solution}
    {next : r.Response → SqlProgram Options Solution α}
    (hnext : ∀ later, store.clock ≤ later.clock →
      later.transactions.find? pid = store.transactions.find? pid →
        later.Permits pid r ∧ ∀ reply after, Answers pid later r reply after →
          after.clock = later.clock → Follows pid (next reply) after) :
    Follows pid (.request r next) store := by
  rintro later ⟨hclock, htransaction⟩ hinv
  obtain ⟨hpermits, hanswer⟩ := hnext later hclock htransaction
  refine ⟨hpermits, ?_⟩
  rintro reply after ⟨hreply, hrechecks⟩
  obtain ⟨hafter, hleaves⟩ := LockInvariant.served hinv hpermits hreply hrechecks
  exact ⟨hafter, hleaves, hanswer reply after hreply hleaves.1⟩

/-- Statements keep the transaction in which they run. -/
theorem selected_of_query {statement : Statement Options Solution} {reply : statement.Answer}
    {after : PostgresState Options Solution} (hselected : Selected pid store)
    (hanswers : Answers pid store (.query statement) reply after) : Selected pid after := by
  obtain ⟨transaction, now, htransaction, hnow⟩ := hselected
  obtain ⟨db, _, _, rfl⟩ := hanswers
  have hfind := find?_recorded statement (statement.affected reply) db htransaction
  cases statement with
  | selectExpired reading => exact ⟨_, reading, hfind, rfl⟩
  | _ => exact ⟨_, now, hfind, hnow⟩

/-- A statement that needs nothing but the transaction of the call. -/
theorem query {statement : Statement Options Solution}
    {next : statement.Answer → SqlProgram Options Solution α}
    (hselected : Selected pid store)
    (hpermits : ∀ later, Selected pid later → later.Permits pid (.query statement))
    (hnext : ∀ reply after, Selected pid after → Follows pid (next reply) after) :
    Follows pid (SeizaServer.query statement >>= next) store := by
  refine request ?_
  intro later _ htransaction
  have hlater : Selected pid later := by
    obtain ⟨transaction, now, hfind, hnow⟩ := hselected
    exact ⟨transaction, now, htransaction.trans hfind, hnow⟩
  refine ⟨hpermits later hlater, ?_⟩
  intro reply after hanswers _
  exact hnext reply after (selected_of_query hlater hanswers)

theorem commit {next : Unit → SqlProgram Options Solution α}
    (hnext : ∀ after, Follows pid (next ()) after) :
    Follows pid (SeizaServer.commit >>= next) store := by
  refine request ?_
  intro later _ _
  exact ⟨trivial, fun _ after _ _ => hnext after⟩

theorem rollback {next : Unit → SqlProgram Options Solution α}
    (hnext : ∀ after, Follows pid (next ()) after) :
    Follows pid (SeizaServer.rollback >>= next) store := by
  refine request ?_
  intro later _ _
  exact ⟨trivial, fun _ after _ _ => hnext after⟩

/-- A call that begins a transaction and reads the clock. -/
theorem beginUtcNow {next : Time → SqlProgram Options Solution α}
    (hnext : ∀ now after, now ≤ after.clock →
      (after.transactions.find? pid).isSome → Follows pid (next now) after) :
    Follows pid (SeizaServer.begin >>= fun _ => SeizaServer.utcNow >>= next) store := by
  refine request ?_
  intro later _ _
  refine ⟨trivial, ?_⟩
  rintro _ after ⟨_, rfl⟩ _
  refine request ?_
  intro later' _ htransaction
  refine ⟨trivial, ?_⟩
  rintro now after ⟨rfl, rfl⟩ _
  refine hnext _ _ (le_refl _) ?_
  rw [htransaction, begun, KeyedTable.find?_put, if_pos rfl]
  rfl

theorem requeueEach (ids : List JobId) {next : Unit → SqlProgram Options Solution α}
    (hselected : Selected pid store)
    (hnext : ∀ after, Selected pid after → Follows pid (next ()) after) :
    Follows pid (SqlxJobRepository.requeueEach ids >>= next) store := by
  induction ids generalizing store with
  | nil => exact hnext store hselected
  | cons id rest ih =>
      rw [SqlxJobRepository.requeueEach, bind_assoc]
      refine query hselected (fun later hlater => hlater) ?_
      intro _ after hafter
      rw [bind_assoc]
      refine query hafter (fun _ _ => trivial) ?_
      intro _ after' hafter'
      exact ih hafter'

theorem reclaimExpired {now : Time} {next : Unit → SqlProgram Options Solution α}
    (hnow : now ≤ store.clock) (htransaction : (store.transactions.find? pid).isSome)
    (hnext : ∀ after, Selected pid after → Follows pid (next ()) after) :
    Follows pid (SqlxJobRepository.reclaimExpired now >>= next) store := by
  rw [SqlxJobRepository.reclaimExpired, bind_assoc]
  refine request ?_
  intro later hclock hsame
  refine ⟨hnow.trans hclock, ?_⟩
  intro expired after hanswers _
  refine requeueEach expired ?_ hnext
  obtain ⟨transaction, hfind⟩ := Option.isSome_iff_exists.mp htransaction
  obtain ⟨db, _, _, rfl⟩ := hanswers
  exact ⟨_, now, find?_recorded _ _ _ (hsame.trans hfind), rfl⟩

theorem scoreCandidates {now : Time} (rows : List (JobRow Options Solution))
    (best : Option (ℚ × JobRecord Options Solution))
    {next : Option (ℚ × JobRecord Options Solution) → SqlProgram Options Solution α}
    (hselected : Selected pid store)
    (hnext : ∀ best after, Selected pid after → Follows pid (next best) after) :
    Follows pid (SqlxJobRepository.scoreCandidates now rows best >>= next) store := by
  induction rows generalizing best store with
  | nil => exact hnext best store hselected
  | cons row rest ih =>
      rw [SqlxJobRepository.scoreCandidates, bind_assoc]
      refine query hselected (fun _ _ => trivial) ?_
      intro last after hafter
      exact ih _ hafter

theorem selectCandidate {requestedJobId : Option JobId} {now : Time}
    {next : Option (JobRecord Options Solution) → SqlProgram Options Solution α}
    (hselected : Selected pid store)
    (hnext : ∀ candidate after, Selected pid after → Follows pid (next candidate) after) :
    Follows pid (SqlxJobRepository.selectCandidate requestedJobId now >>= next) store := by
  cases requestedJobId with
  | some id =>
      rw [SqlxJobRepository.selectCandidate, bind_assoc]
      refine query hselected (fun _ _ => trivial) ?_
      intro row after hafter
      exact hnext _ after hafter
  | none =>
      rw [SqlxJobRepository.selectCandidate, bind_assoc]
      refine query hselected (fun _ _ => trivial) ?_
      intro rows after hafter
      rw [bind_assoc]
      refine scoreCandidates rows none hafter ?_
      intro best after' hafter'
      exact hnext _ after' hafter'

theorem claim (requestedJobId : Option JobId) (leaseSeconds : UInt64) :
    Follows pid (SqlxJobRepository.claim .postgres requestedJobId leaseSeconds) store := by
  refine beginUtcNow ?_
  intro now after hnow htransaction
  refine request ?_
  intro later hclock hsame
  refine ⟨trivial, ?_⟩
  intro _ locked hanswers hlocked
  obtain ⟨transaction, hfind⟩ := Option.isSome_iff_exists.mp htransaction
  refine reclaimExpired (by rw [hlocked]; exact hnow.trans hclock) ?_ ?_
  · obtain ⟨db, _, _, rfl⟩ := hanswers
    rw [find?_recorded _ _ _ (hsame.trans hfind)]
    rfl
  · intro after hselected
    refine selectCandidate hselected ?_
    intro candidate after hselected
    cases candidate with
    | none => exact commit fun _ => done _
    | some job =>
        refine request ?_
        intro later _ hsame
        refine ⟨trivial, ?_⟩
        rintro token after rfl _
        have hselected : Selected pid after := by
          obtain ⟨transaction, now, hfind, hnow⟩ := hselected
          exact ⟨transaction, now, hsame.trans hfind, hnow⟩
        cases leaseExpiresAt now leaseSeconds with
        | none => exact fault _
        | some expires =>
            refine query hselected ?_ ?_
            · rintro later ⟨transaction, now, hfind, _⟩
              exact Option.isSome_iff_exists.mpr ⟨transaction, hfind⟩
            · intro claimed after hselected
              split_ifs
              · refine query hselected (fun _ _ => trivial) ?_
                intro _ after _
                exact commit fun _ => done _
              · exact rollback fun _ => done _

theorem pendingNotifications (limit : ℕ) :
    Follows pid (SqlxJobRepository.pendingNotifications limit :
      SqlProgram Options Solution (List JobId)) store := by
  refine beginUtcNow ?_
  intro now after hnow htransaction
  refine reclaimExpired hnow htransaction ?_
  intro after hselected
  refine query hselected (fun _ _ => trivial) ?_
  intro rows after _
  exact commit fun _ => done _

/-- A call that reads the clock and then executes one statement outside any
transaction. -/
theorem utcNowThen {next : Time → SqlProgram Options Solution α}
    (hidle : store.transactions.find? pid = none)
    (hnext : ∀ now after, now ≤ after.clock → now.FourDigitYear →
      after.transactions.find? pid = none → Follows pid (next now) after) :
    Follows pid (utcNow >>= next) store := by
  rintro later ⟨_, hsame⟩ hinv
  refine ⟨trivial, ?_⟩
  rintro now after ⟨⟨rfl, rfl⟩, hyear⟩
  exact ⟨hinv, ⟨rfl, fun _ _ => rfl⟩, hnext _ _ (le_refl _) hyear (hsame.trans hidle)⟩

theorem lastStatement {statement : Statement Options Solution}
    {next : statement.Answer → SqlProgram Options Solution α}
    (hpermits : ∀ later : PostgresState Options Solution, store.clock ≤ later.clock →
      later.transactions.find? pid = store.transactions.find? pid →
        later.Permits pid (.query statement))
    (hnext : ∀ reply, ∃ value, next reply = .done value) :
    Follows pid (.request (.query statement) next) store := by
  refine request ?_
  intro later hclock hsame
  refine ⟨hpermits later hclock hsame, ?_⟩
  intro reply after _ _
  obtain ⟨value, hvalue⟩ := hnext reply
  rw [hvalue]
  exact done value

theorem heartbeat (id : JobId) (leaseToken : String) (leaseSeconds : UInt64)
    (hidle : store.transactions.find? pid = none) :
    Follows pid (SqlxJobRepository.heartbeat id leaseToken leaseSeconds :
      SqlProgram Options Solution Bool) store := by
  refine utcNowThen hidle ?_
  intro now after hnow hyear hidle
  cases leaseExpiresAt now leaseSeconds with
  | none => exact fault _
  | some expires =>
      refine lastStatement ?_ fun reply => ⟨_, rfl⟩
      intro later hclock hsame
      exact ⟨hsame.trans hidle, hnow.trans hclock, hyear⟩

theorem complete (id : JobId) (leaseToken : String) (solution : Option Solution)
    (error : Option String) (hidle : store.transactions.find? pid = none) :
    Follows pid (SqlxJobRepository.complete id leaseToken solution error :
      SqlProgram Options Solution Bool) store := by
  unfold SqlxJobRepository.complete
  by_cases hnone : solution.isNone = true ∧ error.isNone = true
  · rw [if_pos hnone]
    exact fault _
  · rw [if_neg hnone]
    refine utcNowThen hidle ?_
    intro now after hnow hyear hidle
    refine lastStatement ?_ fun reply => ⟨_, rfl⟩
    intro later hclock hsame
    exact ⟨hsame.trans hidle, hnow.trans hclock, hyear⟩

theorem inputKey (id : JobId) (leaseToken : String)
    (hidle : store.transactions.find? pid = none) :
    Follows pid (SqlxJobRepository.inputKey id leaseToken :
      SqlProgram Options Solution (Option String)) store := by
  refine utcNowThen hidle ?_
  intro now after _ _ _
  exact lastStatement (fun _ _ _ => trivial) fun reply => ⟨_, rfl⟩

/-- Every call that may start follows the rules. -/
theorem body {call : RepositoryCall Options Solution}
    (hadmits : postgresRechecking.admits pid store call) :
    Follows pid (postgresRechecking.body call) store := by
  obtain ⟨hleases, hidle⟩ := hadmits
  cases call with
  | claim requestedJobId leaseSeconds => exact claim requestedJobId leaseSeconds
  | pendingNotifications limit => exact pendingNotifications limit
  | heartbeat id leaseToken leaseSeconds => exact heartbeat id leaseToken leaseSeconds hidle
  | inputKey id leaseToken => exact inputKey id leaseToken hidle
  | complete id leaseToken solution error => exact complete id leaseToken solution error hidle
  | _ => cases hleases

end Follows

/-! ## Live leases -/

section LiveLease

/-- The lease with this token is committed, and the clock has not reached its
expiry. -/
def LiveLease (store : PostgresState Options Solution) (id : JobId) (token : String) : Prop :=
  ∃ row expires, store.committed.jobs.find? id = some row ∧ row.status = .solving ∧
    row.leaseToken = some token ∧ row.leaseExpiresAt = some expires ∧ store.clock < expires

/-- The expiry stored for the job lies in the years that are written with four
digits. -/
def ExpiresInYears (store : PostgresState Options Solution) (id : JobId) : Prop :=
  ∀ row expires, store.committed.jobs.find? id = some row →
    row.leaseExpiresAt = some expires → expires.FourDigitYear

/-- The row is still leased out with this token. -/
def StillLeased (store : PostgresState Options Solution) (id : JobId) (token : String) : Prop :=
  ∃ row, store.committed.jobs.find? id = some row ∧ row.status = .solving ∧
    row.leaseToken = some token

abbrev PostgresConfiguration (Options Solution : Type) :=
  Configuration (RepositoryCall Options Solution) (SqlRequest Options Solution)
    SqlRequest.Response Fault RepositoryCall.Result (PostgresState Options Solution)

abbrev PostgresLabel (Options Solution : Type) :=
  Label (RepositoryCall Options Solution) (SqlRequest Options Solution) SqlRequest.Response Fault

variable {store : PostgresState Options Solution} {id : JobId} {token : String}
  {config after : PostgresConfiguration Options Solution}
  {label : PostgresLabel Options Solution}

omit [TimeStore] in
theorem LiveLease.stillLeased (hlive : LiveLease store id token) : StillLeased store id token := by
  obtain ⟨row, _, hfind, hsolving, htoken, _, _⟩ := hlive
  exact ⟨row, hfind, hsolving, htoken⟩

omit [TimeStore] in
theorem LiveLease.not_lapsed (hlive : LiveLease store id token) : ¬ store.Lapsed id := by
  obtain ⟨row, expires, hfind, hsolving, _, hexpires, hlt⟩ := hlive
  intro hlapsed
  obtain ⟨expires', hexpires', hle⟩ := hlapsed row hfind hsolving
  rw [hexpires] at hexpires'
  cases hexpires'
  exact absurd hle (not_le.mpr hlt)

omit [TimeStore] in
/-- No open transaction holds a version of a job under a live lease. -/
theorem LiveLease.not_wrote (hlive : LiveLease store id token) (hinv : store.LockInvariant)
    {transaction : Transaction Options Solution}
    (hmem : transaction ∈ store.transactions.rows) : ¬ transaction.Wrote id :=
  fun hwrote => hlive.not_lapsed
    (hinv.lapsed transaction.pid transaction id (KeyedTable.find?_of_mem hmem) hwrote)

/-- Before its expiry the lease covers every reading that is not in the
future. -/
theorem LiveLease.leasedTo (hbytes : TimeStore.Bytewise) (hlive : LiveLease store id token)
    (hexpiry : ExpiresInYears store id) {now : Time} (hnow : now ≤ store.clock)
    (hyear : now.FourDigitYear) :
    ∃ row, store.committed.jobs.find? id = some row ∧ row.leasedTo token now = true := by
  obtain ⟨row, expires, hfind, hsolving, htoken, hexpires, hlt⟩ := hlive
  refine ⟨row, hfind, ?_⟩
  simp only [JobRow.leasedTo, hsolving, htoken, hexpires, decide_true, Bool.true_and,
    Option.any_some, hbytes.isGT_iff (hexpiry row expires hfind hexpires) hyear]
  exact lt_of_le_of_lt hnow hlt

/-- A statement outside any transaction leaves a live lease in place, unless it
is the holder's completion. -/
theorem LiveLease.autocommit (hlive : LiveLease store id token) {pid : ℕ}
    {statement : Statement Options Solution} {answer : statement.Answer}
    {db : Database Options Solution} (hpermits : store.Permits pid (.query statement))
    (hnone : store.transactions.find? pid = none)
    (hrun : store.committed.run statement = .ok (db, answer)) :
    (∃ row, db.jobs.find? id = some row ∧ row.status = .solving ∧
      row.leaseToken = some token) ∨
    ∃ status now solution error, statement = .finishJob status now solution error id token ∧
      statement.affected answer = 1 := by
  obtain ⟨row, hfind, hsolving, htoken⟩ := hlive.stillLeased
  by_cases hwritten : statement.jobTarget = some id ∧ statement.affected answer ≠ 0
  · obtain ⟨htarget, haffected⟩ := hwritten
    cases statement with
    | extendLease expires target leaseToken now =>
        cases htarget
        left
        obtain ⟨hdb, _⟩ := Prod.ext_iff.mp (Except.ok.inj hrun)
        simp only at hdb
        rw [← hdb, Database.find?_updateJob, hfind, Option.map_some]
        refine ⟨_, rfl, ?_⟩
        split_ifs
        · exact ⟨hsolving, htoken⟩
        · exact ⟨hsolving, htoken⟩
    | finishJob status now solution error target leaseToken =>
        cases htarget
        right
        obtain ⟨_, hanswer⟩ := Prod.ext_iff.mp (Except.ok.inj hrun)
        simp only [Database.updateJob_affected, hfind, Option.elim_some] at hanswer
        have hleased : row.leasedTo leaseToken now = true := by
          by_contra hrefused
          rw [if_neg hrefused] at hanswer
          exact haffected hanswer.symm
        have hsame : leaseToken = token := by
          simp only [JobRow.leasedTo, Bool.and_eq_true, decide_eq_true_eq] at hleased
          have hboth := hleased.1.2.symm.trans htoken
          exact Option.some.inj hboth
        subst hsame
        rw [if_pos hleased] at hanswer
        exact ⟨status, now, solution, error, rfl, hanswer.symm⟩
    | requeueExpired target =>
        obtain ⟨_, _, hsome, _⟩ := hpermits
        rw [hnone] at hsome
        cases hsome
    | takeLease now leaseToken expires target =>
        rw [PostgresState.Permits, hnone] at hpermits
        cases hpermits
    | insertJob job => exact hpermits.elim
    | _ => cases htarget
  · left
    rw [find?_of_autocommit hpermits hnone hrun
      (fun htarget => by_contra fun haffected => hwritten ⟨htarget, haffected⟩)]
    exact ⟨row, hfind, hsolving, htoken⟩

/-- One step of the system keeps a live lease, unless it is the holder's
completion. -/
theorem LiveLease.step (hlive : LiveLease config.store id token)
    (hrespected : postgresDiscipline.Respected config)
    (hstep : postgresRechecking.Step config label after) :
    StillLeased after.store id token ∨
      ∃ pid status now solution error,
        label = .ask pid (.query (.finishJob status now solution error id token)) (1 : ℕ) := by
  have hinv : config.store.LockInvariant := hrespected.1
  cases hstep with
  | start pid call hfree hadmits => exact .inl hlive.stillLeased
  | environment store hmoves =>
      obtain ⟨clock, _, rfl⟩ := hmoves
      exact .inl hlive.stillLeased
  | halt pid call r next cause store hprocess hhalts =>
      obtain rfl := hhalts
      exact .inl hlive.stillLeased
  | ask pid call r next reply store hprocess hanswers =>
      have hpermits : config.store.Permits pid r := hrespected.guard hprocess
      obtain ⟨hreply, _⟩ := hanswers
      cases r with
      | begin =>
          obtain ⟨_, rfl⟩ := hreply
          exact .inl hlive.stillLeased
      | beginImmediate => exact hreply.elim
      | commit =>
          obtain ⟨hsome, rfl⟩ := hreply
          obtain ⟨transaction, htransaction⟩ := Option.isSome_iff_exists.mp hsome
          have hwrote := hlive.not_wrote hinv (KeyedTable.mem_of_find? htransaction)
          have hnone : transaction.written.jobs.find? id = none := by
            simpa [Transaction.Wrote] using hwrote
          obtain ⟨row, hfind, hrest⟩ := hlive.stillLeased
          left
          refine ⟨row, ?_, hrest⟩
          simp only
          rw [find?_view_of_some htransaction id, hnone, Option.none_or]
          exact hfind
      | rollback =>
          obtain rfl := hreply
          exact .inl hlive.stillLeased
      | utcNow =>
          obtain ⟨_, rfl⟩ := hreply
          exact .inl hlive.stillLeased
      | uuidV7 =>
          obtain rfl := hreply
          exact .inl hlive.stillLeased
      | query statement =>
          obtain ⟨db, hrun, _, rfl⟩ := hreply
          cases htransaction : config.store.transactions.find? pid with
          | some transaction =>
              left
              rw [recorded_of_some htransaction]
              exact hlive.stillLeased
          | none =>
              rw [view_of_none htransaction] at hrun
              rw [recorded_of_none htransaction]
              rcases hlive.autocommit hpermits htransaction hrun with hkept |
                ⟨status, now, solution, error, rfl, hone⟩
              · exact .inl hkept
              · exact .inr ⟨pid, status, now, solution, error, by rw [← hone]; rfl⟩

omit [TimeStore] in
/-- The statement with which a completion ends. -/
theorem pending_complete {leaseToken : String} {solution : Option Solution}
    {error : Option String} {answers : List ((r : SqlRequest Options Solution) × r.Response)}
    {statement : Statement Options Solution}
    {next : statement.Answer → SqlProgram Options Solution Bool}
    (hreplays : (SqlxJobRepository.complete id leaseToken solution error).Replays answers
      (.request (.query statement) next)) :
    ∃ status now, (.request (.query statement) next : SqlProgram Options Solution Bool) =
      .request (.query (.finishJob status now solution error id leaseToken))
        fun rows => .done (decide (rows = (1 : ℕ))) := by
  unfold SqlxJobRepository.complete at hreplays
  by_cases hnone : solution.isNone = true ∧ error.isNone = true
  · rw [if_pos hnone] at hreplays
    cases answers with
    | nil => cases hreplays
    | cons answer rest =>
        obtain ⟨_, hfault, _⟩ := hreplays
        cases hfault
  · rw [if_neg hnone] at hreplays
    cases answers with
    | nil => cases hreplays
    | cons answer rest =>
        obtain ⟨reading, hreading, hrest⟩ := hreplays
        obtain ⟨r, reply⟩ := answer
        cases hreading
        cases rest with
        | nil => exact ⟨_, _, hrest.symm⟩
        | cons answer rest =>
            obtain ⟨last, hlast, hrest⟩ := hrest
            obtain ⟨r, reply⟩ := answer
            cases hlast
            cases rest with
            | nil => cases hrest
            | cons answer rest =>
                obtain ⟨_, hmore, _⟩ := hrest
                cases hmore

omit [TimeStore] in
/-- The statement with which a heartbeat ends. -/
theorem pending_heartbeat {leaseToken : String} {leaseSeconds : UInt64}
    {answers : List ((r : SqlRequest Options Solution) × r.Response)}
    {statement : Statement Options Solution}
    {next : statement.Answer → SqlProgram Options Solution Bool}
    (hreplays : (SqlxJobRepository.heartbeat id leaseToken leaseSeconds).Replays answers
      (.request (.query statement) next)) :
    ∃ expires now, (.request (.query statement) next : SqlProgram Options Solution Bool) =
      .request (.query (.extendLease expires id leaseToken now))
        fun rows => .done (decide (rows = (1 : ℕ))) := by
  cases answers with
  | nil => cases hreplays
  | cons answer rest =>
      obtain ⟨reading, hreading, hrest⟩ := hreplays
      obtain ⟨r, now⟩ := answer
      cases hreading
      simp only [Program.bind] at hrest
      cases hexpires : leaseExpiresAt now leaseSeconds with
      | none =>
          rw [hexpires] at hrest
          cases rest with
          | nil => cases hrest
          | cons answer rest =>
              obtain ⟨_, hfault, _⟩ := hrest
              cases hfault
      | some expires =>
          rw [hexpires] at hrest
          cases rest with
          | nil => exact ⟨expires, now, hrest.symm⟩
          | cons answer rest =>
              obtain ⟨last, hlast, hrest⟩ := hrest
              obtain ⟨r, reply⟩ := answer
              cases hlast
              cases rest with
              | nil => cases hrest
              | cons answer rest =>
                  obtain ⟨_, hmore, _⟩ := hrest
                  cases hmore

/-- The next request of the process can be served, and however it is served the
call returns this value. -/
def AboutToReturn (config : PostgresConfiguration Options Solution) (pid : ℕ)
    (call : RepositoryCall Options Solution) (value : call.Result) : Prop :=
  (∃ r reply after, postgresRechecking.Step config (.ask pid r reply) after) ∧
    ∀ r reply after, postgresRechecking.Step config (.ask pid r reply) after →
      after.process pid = some ⟨call, .done value⟩

/-- The holder's update affects its row. -/
theorem LiveLease.affected (hbytes : TimeStore.Bytewise) (hlive : LiveLease store id token)
    (hexpiry : ExpiresInYears store id) {now : Time} (hnow : now ≤ store.clock)
    (hyear : now.FourDigitYear) {assign : JobRow Options Solution → JobRow Options Solution}
    (hassign : ∀ row, (assign row).id = row.id) :
    (store.committed.updateJob id (fun row => row.leasedTo token now) assign hassign).2 = 1 := by
  obtain ⟨row, hfind, hleased⟩ := hlive.leasedTo hbytes hexpiry hnow hyear
  rw [Database.updateJob_affected, hfind, Option.elim_some, if_pos hleased]

omit [TimeStore] in
/-- Nothing blocks a statement that writes only the row of a live lease. -/
theorem LiveLease.unblocked (hlive : LiveLease store id token) (hinv : store.LockInvariant)
    {pid : ℕ} {statement : Statement Options Solution} (hlock : statement.takesLock = false)
    (hjob : statement.jobTarget = some id) (hdonation : statement.donationTarget = none)
    (hclient : statement.clientTarget = none) (houtbox : statement.outboxTarget = none) :
    store.Unblocked pid statement := by
  intro transaction hmem _
  have hnone : (transaction.written.jobs.find? id).isSome = false := by
    simpa [Transaction.Wrote] using hlive.not_wrote hinv hmem
  simp [Transaction.blocks, hlock, hjob, hdonation, hclient, houtbox, hnone]

/-- A call of the holder that is about to issue its statement returns `true`. -/
private theorem aboutToReturn_true {pid : ℕ} {call : RepositoryCall Options Solution}
    {value : call.Result} {statement : Statement Options Solution}
    {next : statement.Answer → SqlProgram Options Solution call.Result}
    (hprocess : config.process pid = some ⟨call, .request (.query statement) next⟩)
    (hrechecks : ∀ reply, ReclaimRechecks pid config.store (.query statement) reply)
    (reply : statement.Answer) (db : Database Options Solution)
    (hrun : (config.store.view pid).run statement = .ok (db, reply))
    (hunblocked : config.store.Unblocked pid statement) (hvalue : next reply = .done value) :
    AboutToReturn config pid call value := by
  have hanswers : postgresRechecking.answers pid config.store (.query statement) reply
      (config.store.recorded pid statement (statement.affected reply) db) :=
    ⟨⟨db, hrun, fun _ => hunblocked, rfl⟩, hrechecks reply⟩
  have hstep := @System.Step.ask _ _ _ _ _ _ postgresRechecking config pid call
    (.query statement) next reply _ hprocess hanswers
  refine ⟨⟨.query statement, reply, _, hstep⟩, ?_⟩
  intro r reply' after hstep
  cases hstep with
  | ask _ call' _ next' _ store hprocess' hanswers =>
      rw [hprocess] at hprocess'
      cases hprocess'
      obtain ⟨⟨db', hrun', _, _⟩, _⟩ := hanswers
      rw [hrun] at hrun'
      cases hrun'
      simp only [Function.update_self, hvalue]

theorem LiveLease.complete_returns (hbytes : TimeStore.Bytewise)
    (hlive : LiveLease config.store id token) (hexpiry : ExpiresInYears config.store id)
    (hrespected : postgresDiscipline.Respected config)
    {start : PostgresState Options Solution} {labels : List (PostgresLabel Options Solution)}
    (hrun : Run postgresRechecking.Step (.idle start) labels config) {pid : ℕ}
    {solution : Option Solution} {error : Option String} {statement : Statement Options Solution}
    {next : statement.Answer → SqlProgram Options Solution Bool}
    (hprocess : config.process pid =
      some ⟨.complete id token solution error, .request (.query statement) next⟩) :
    AboutToReturn config pid (.complete id token solution error) true := by
  rcases System.replays_of_run hrun hprocess with ⟨_, hfault⟩ | hreplays
  · cases hfault
  · obtain ⟨status, now, heq⟩ := pending_complete hreplays
    rw [heq] at hprocess
    obtain ⟨hidle, hnow, hyear⟩ : config.store.transactions.find? pid = none ∧
        now ≤ config.store.clock ∧ now.FourDigitYear := hrespected.guard hprocess
    have hone := hlive.affected hbytes hexpiry hnow hyear
      fun row => row.finished_id status now solution error
    refine aboutToReturn_true hprocess (fun _ => trivial) (1 : ℕ)
      (config.store.committed.updateJob id (fun row => row.leasedTo token now)
        (fun row => row.finished status now solution error)
        fun row => row.finished_id status now solution error).1 ?_
      (hlive.unblocked hrespected.1 rfl rfl rfl rfl rfl) rfl
    rw [view_of_none hidle, ← hone]
    rfl

theorem LiveLease.heartbeat_returns (hbytes : TimeStore.Bytewise)
    (hlive : LiveLease config.store id token) (hexpiry : ExpiresInYears config.store id)
    (hrespected : postgresDiscipline.Respected config)
    {start : PostgresState Options Solution} {labels : List (PostgresLabel Options Solution)}
    (hrun : Run postgresRechecking.Step (.idle start) labels config) {pid : ℕ}
    {leaseSeconds : UInt64} {statement : Statement Options Solution}
    {next : statement.Answer → SqlProgram Options Solution Bool}
    (hprocess : config.process pid =
      some ⟨.heartbeat id token leaseSeconds, .request (.query statement) next⟩) :
    AboutToReturn config pid (.heartbeat id token leaseSeconds) true := by
  rcases System.replays_of_run hrun hprocess with ⟨_, hfault⟩ | hreplays
  · cases hfault
  · obtain ⟨expires, now, heq⟩ := pending_heartbeat hreplays
    rw [heq] at hprocess
    obtain ⟨hidle, hnow, hyear⟩ : config.store.transactions.find? pid = none ∧
        now ≤ config.store.clock ∧ now.FourDigitYear := hrespected.guard hprocess
    have hone := hlive.affected hbytes hexpiry hnow hyear fun row => row.extended_id expires
    refine aboutToReturn_true hprocess (fun _ => trivial) (1 : ℕ)
      (config.store.committed.updateJob id (fun row => row.leasedTo token now)
        (fun row => row.extended expires) fun row => row.extended_id expires).1 ?_
      (hlive.unblocked hrespected.1 rfl rfl rfl rfl rfl) rfl
    rw [view_of_none hidle, ← hone]
    rfl

/-- A live lease is never revoked in a run whose reclaiming updates recheck the
expiry, in a database that compares the texts of instants byte by byte: in every
reachable configuration no open transaction holds another version of the job,
every step keeps the lease unless it is the holder's own completion, and a
completion or heartbeat the holder issues returns `true`. -/
theorem postgres_live_lease_kept (hbytes : TimeStore.Bytewise)
    {start : PostgresState Options Solution}
    (hstart : start.transactions = .empty) {labels : List (PostgresLabel Options Solution)}
    (hrun : Run postgresRechecking.Step (.idle start) labels config)
    (hlive : LiveLease config.store id token) (hexpiry : ExpiresInYears config.store id) :
    (∀ transaction ∈ config.store.transactions.rows, ¬ transaction.Wrote id) ∧
    (∀ label after, postgresRechecking.Step config label after →
      StillLeased after.store id token ∨
        ∃ pid status now solution error,
          label = .ask pid (.query (.finishJob status now solution error id token)) (1 : ℕ)) ∧
    (∀ pid solution error statement next,
      config.process pid =
          some ⟨.complete id token solution error, .request (.query statement) next⟩ →
        AboutToReturn config pid (.complete id token solution error) true) ∧
    ∀ pid leaseSeconds statement next,
      config.process pid =
          some ⟨.heartbeat id token leaseSeconds, .request (.query statement) next⟩ →
        AboutToReturn config pid (.heartbeat id token leaseSeconds) true := by
  have hinitial : start.LockInvariant := by
    refine ⟨?_, ?_, ?_⟩ <;> rw [hstart]
    · intro pid transaction now hfind
      cases hfind
    · intro pid other first second id hfind
      cases hfind
    · intro pid transaction id hfind
      cases hfind
  have hrespected : postgresDiscipline.Respected config :=
    Discipline.respected_of_run (fun pid call store _ hadmits => Follows.body hadmits)
      hinitial hrun
  refine ⟨fun transaction hmem => hlive.not_wrote hrespected.1 hmem, ?_, ?_, ?_⟩
  · intro label after hstep
    exact hlive.step hrespected hstep
  · intro pid solution error statement next hprocess
    exact hlive.complete_returns hbytes hexpiry hrespected hrun hprocess
  · intro pid leaseSeconds statement next hprocess
    exact hlive.heartbeat_returns hbytes hexpiry hrespected hrun hprocess

end LiveLease

end Stores

/-! ### A run on fixed inputs -/

attribute [local instance] TimeStore.bytewise

/-- One way to serve requests: a fresh token is named after its process. -/
def servePostgres (pid : ℕ) (store : PostgresState Options Solution) :
    (r : SqlRequest Options Solution) → Option (r.Response × PostgresState Options Solution)
  | .begin =>
      if store.transactions.find? pid = none then some ((), store.begun pid) else none
  | .beginImmediate => none
  | .commit =>
      if (store.transactions.find? pid).isSome then
        some ((), { store.ended pid with committed := store.view pid })
      else none
  | .rollback => some ((), store.ended pid)
  | .utcNow => some (store.clock, store)
  | .uuidV7 => some ("token-" ++ toString pid, store)
  | .query statement =>
      match (store.view pid).run statement with
      | .error _ => none
      | .ok (db, reply) =>
          if statement.affected reply = 0 ∨
              (store.transactions.rows.all fun transaction =>
                transaction.pid = pid || !transaction.blocks statement) = true then
            some (reply, store.recorded pid statement (statement.affected reply) db)
          else none

theorem answers_of_servePostgres (pid : ℕ) (store : PostgresState Options Solution)
    (r : SqlRequest Options Solution) (reply : r.Response)
    (after : PostgresState Options Solution)
    (hserve : servePostgres pid store r = some (reply, after)) :
    PostgresState.Answers pid store r reply after := by
  cases r with
  | begin =>
      simp only [servePostgres] at hserve
      split_ifs at hserve with hnone
      cases hserve
      exact ⟨hnone, rfl⟩
  | beginImmediate => cases hserve
  | commit =>
      simp only [servePostgres] at hserve
      split_ifs at hserve with hsome
      cases hserve
      exact ⟨hsome, rfl⟩
  | rollback =>
      cases hserve
      rfl
  | utcNow =>
      cases hserve
      exact ⟨rfl, rfl⟩
  | uuidV7 =>
      cases hserve
      rfl
  | query statement =>
      simp only [servePostgres] at hserve
      split at hserve
      next => cases hserve
      next db answer hrun =>
        split_ifs at hserve with hfree
        cases hserve
        refine ⟨db, hrun, ?_, rfl⟩
        intro haffected transaction hmem hother
        have hall := hfree.resolve_left haffected
        simpa [hother] using List.all_eq_true.mp hall transaction hmem

def admitPostgres (pid : ℕ) (store : PostgresState Options Solution)
    (call : RepositoryCall Options Solution) : Bool :=
  call.leases && (store.transactions.find? pid).isNone

theorem admits_of_admitPostgres (pid : ℕ) (store : PostgresState Options Solution)
    (call : RepositoryCall Options Solution) (hadmission : admitPostgres pid store call = true) :
    postgres.admits pid store call := by
  simpa [admitPostgres, postgres] using hadmission

def playPostgres (config : PostgresConfiguration Options Solution)
    (schedule : List (Move (RepositoryCall Options Solution))) :
    Option (PostgresConfiguration Options Solution) :=
  config.moves (RepositoryCall.sqlProgram .postgres) admitPostgres servePostgres schedule

theorem run_of_playPostgres {config : PostgresConfiguration Options Solution}
    {schedule : List (Move (RepositoryCall Options Solution))}
    (hplays : (playPostgres config schedule).isSome = true) :
    ∃ labels, Run postgres.Step config labels ((playPostgres config schedule).getD config) := by
  obtain ⟨final, hfinal⟩ := Option.isSome_iff_exists.mp hplays
  rw [hfinal]
  exact System.run_of_moves admits_of_admitPostgres answers_of_servePostgres hfinal

/-- The clock has reached the expiry of the lease of job 1. -/
def lapsedStart : PostgresState Unit Unit where
  clock := 10
  committed :=
    { jobs :=
        { rows := [(JobRow.inserted (enqueuedRecord (sampleJob 1 "a" "a/1" 1 0))).taken 0 "old" 10]
          unique := List.nodup_singleton _ }
      donations := .empty
      clientService := .empty
      outbox := .empty }
  transactions := .empty

/-- `pending_notifications` selects job 1; another replica claims it and
commits. -/
def claimedMeanwhile : PostgresConfiguration Unit Unit :=
  (playPostgres (.idle lapsedStart)
    ([.start 0 (.pendingNotifications 10)] ++ List.replicate 3 (.ask 0) ++
      [.start 1 (.claim (some 1) 300)] ++ List.replicate 11 (.ask 1))).getD (.idle lapsedStart)

/-- The reclaiming `UPDATE` of `pending_notifications` follows and is
committed; then the holder completes. -/
def staleReclaim : List (Move (RepositoryCall Unit Unit)) :=
  List.replicate 4 (.ask 0) ++
    [.start 2 (.complete 1 "token-1" (some ()) none), .ask 2, .ask 2]

/-- The completion of this process was refused. -/
def refusedCompletion (config : PostgresConfiguration Unit Unit) (pid : ℕ) : Bool :=
  match config.process pid with
  | some ⟨.complete _ _ _ _, .done false⟩ => true
  | _ => false

/-- Without the recheck a live lease is revoked: five minutes before its expiry
the job is queued again and the holder's completion is refused. -/
theorem postgres_live_lease_counterexample :
    ∃ labels before more after,
      Run postgres.Step (.idle lapsedStart) labels before ∧
        LiveLease before.store 1 "token-1" ∧
        Run postgres.Step before more after ∧
        (after.store.committed.jobs.find? 1).map JobRow.status = some .queued ∧
        after.store.clock = 10 ∧
        refusedCompletion after 2 = true := by
  obtain ⟨labels, hlabels⟩ := run_of_playPostgres
    (show (playPostgres (.idle lapsedStart)
      ([.start 0 (.pendingNotifications 10)] ++ List.replicate 3 (.ask 0) ++
        [.start 1 (.claim (some 1) 300)] ++ List.replicate 11 (.ask 1))).isSome = true by
      decide)
  obtain ⟨more, hmore⟩ := run_of_playPostgres
    (show (playPostgres claimedMeanwhile staleReclaim).isSome = true by decide)
  have hrow : (claimedMeanwhile.store.committed.jobs.find? 1).map
      (fun row => (row.status, row.leaseToken, row.leaseExpiresAt)) =
        some (.solving, some "token-1", some 300000000010) := by decide
  have hclock : claimedMeanwhile.store.clock = 10 := by decide
  obtain ⟨row, hfind, hcolumns⟩ := Option.map_eq_some_iff.mp hrow
  simp only [Prod.mk.injEq] at hcolumns
  obtain ⟨hstatus, htoken, hexpires⟩ := hcolumns
  refine ⟨labels, claimedMeanwhile, more, _, hlabels,
    ⟨row, _, hfind, hstatus, htoken, hexpires, by rw [hclock]; decide⟩, hmore, ?_, ?_, ?_⟩
  · decide
  · decide
  · decide

/-- The reclaiming `UPDATE` about to be served rechecks the expiry, and the clock
about to be read has a year of four digits. -/
def rechecks (pid : ℕ) (store : PostgresState Options Solution) :
    SqlRequest Options Solution → Bool
  | .query (.requeueExpired id) =>
      ((store.view pid).jobs.find? id).all fun row =>
        row.status ≠ .solving ||
          (store.transactions.find? pid).all fun transaction =>
            transaction.selectedAt.all fun now => row.leaseExpiresAt.any fun expires => expires ≤ now
  | .utcNow => decide store.clock.FourDigitYear
  | _ => true

theorem reclaimRechecks_of_rechecks {pid : ℕ} {store after : PostgresState Options Solution}
    {r : SqlRequest Options Solution} {reply : r.Response}
    (hrechecks : rechecks pid store r = true)
    (hserved : servePostgres pid store r = some (reply, after)) :
    PostgresState.ReclaimRechecks pid store r reply := by
  cases r with
  | query statement =>
      cases statement with
      | requeueExpired id =>
          intro row transaction now hfind hsolving htransaction hselected
          simpa [rechecks, hfind, hsolving, htransaction, hselected, Option.any_eq_true]
            using hrechecks
      | _ => trivial
  | utcNow =>
      cases hserved
      have hyear : Time.FourDigitYear store.clock := of_decide_eq_true hrechecks
      exact hyear
  | _ => trivial

/-- The claim of the run above, with nothing in between, leaves a live lease
which no step revokes. -/
theorem postgres_live_lease_kept_claimed :
    ∃ (labels : List (PostgresLabel Unit Unit)) (config : PostgresConfiguration Unit Unit),
      Run postgresRechecking.Step (.idle lapsedStart) labels config ∧
        LiveLease config.store 1 "token-1" ∧
        ∀ label after, postgresRechecking.Step config label after →
          StillLeased after.store 1 "token-1" ∨
            ∃ pid status now solution error,
              label = .ask pid
                (.query (.finishJob status now solution error 1 "token-1")) (1 : ℕ) := by
  have hplays : ((Configuration.idle lapsedStart).moves (RepositoryCall.sqlProgram .postgres)
      admitPostgres
      (fun pid store r => if rechecks pid store r then servePostgres pid store r else none)
      ([.start 1 (.claim (some 1) 300)] ++ List.replicate 11 (.ask 1))).any (fun config =>
        decide (config.store.clock = 10 ∧
          (config.store.committed.jobs.find? 1).map
            (fun row => (row.status, row.leaseToken, row.leaseExpiresAt)) =
              some (.solving, some "token-1", some 300000000010))) = true := by
    decide
  simp only [Option.any_eq_true, decide_eq_true_eq] at hplays
  obtain ⟨config, hmoves, hclock, hrow⟩ := hplays
  obtain ⟨row, hfind, hcolumns⟩ := Option.map_eq_some_iff.mp hrow
  simp only [Prod.mk.injEq] at hcolumns
  obtain ⟨hstatus, htoken, hexpires⟩ := hcolumns
  have hlive : LiveLease config.store 1 "token-1" :=
    ⟨row, _, hfind, hstatus, htoken, hexpires, by rw [hclock]; decide⟩
  have hserve : ∀ (pid : ℕ) (store : PostgresState Unit Unit) (r : SqlRequest Unit Unit)
      (reply : r.Response) (after : PostgresState Unit Unit),
      (if rechecks pid store r then servePostgres pid store r else none) = some (reply, after) →
        postgresRechecking.answers pid store r reply after := by
    intro pid store r reply after hserved
    split_ifs at hserved with hrechecks
    exact ⟨answers_of_servePostgres pid store r reply after hserved,
      reclaimRechecks_of_rechecks hrechecks hserved⟩
  have hadmission : ∀ pid (store : PostgresState Unit Unit) call,
      admitPostgres pid store call = true → postgresRechecking.admits pid store call :=
    admits_of_admitPostgres
  obtain ⟨labels, hrun⟩ := System.run_of_moves hadmission hserve hmoves
  have hexpiry : ExpiresInYears config.store 1 := by
    intro other expires hother hsome
    rw [hfind] at hother
    cases hother
    rw [hexpires] at hsome
    cases hsome
    decide
  exact ⟨labels, config, hrun, hlive,
    (postgres_live_lease_kept TimeStore.bytewise_spec rfl hrun hlive hexpiry).2.1⟩

end SeizaServer
