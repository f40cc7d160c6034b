import SeizaServer.InterleavedPrograms
import SeizaServer.SqlxAtomicCalls

/-!
# The repository on PostgreSQL, statement by statement

Several replicas execute the leasing calls under READ COMMITTED.  A statement
sees the committed rows under its own transaction's versions; an `UPDATE` that
meets its condition waits for any other transaction holding a version of the
row; `claim` holds the advisory lock until it ends; one clock serves everybody.
-/

namespace SeizaServer

open Interaction Transition

variable {Options Solution : Type} [TimeStore]

/-! ## Rows a statement writes -/

namespace Statement

def takesLock : Statement Options Solution → Bool
  | .advisoryLock => true
  | _ => false

/-- The row of `jobs_v2` a statement may write. -/
def jobTarget : Statement Options Solution → Option JobId
  | .requeueExpired id => some id
  | .insertJob job => some job.id
  | .takeLease _ _ _ id => some id
  | .extendLease _ id _ _ => some id
  | .finishJob _ _ _ _ id _ => some id
  | _ => none

def donationTarget : Statement Options Solution → Option JobId
  | .upsertDonation id _ => some id
  | _ => none

def clientTarget : Statement Options Solution → Option String
  | .upsertClientService owner _ => some owner
  | _ => none

def outboxTarget : Statement Options Solution → Option JobId
  | .resetNotification id => some id
  | .insertNotification id => some id
  | .markDelivered _ id => some id
  | _ => none

/-- The number of rows a statement wrote; the advisory lock counts as one. -/
def affected : (statement : Statement Options Solution) → statement.Answer → ℕ
  | .advisoryLock, _ => 1
  | .requeueExpired _, rows => rows
  | .resetNotification _, rows => rows
  | .insertJob _, rows => rows
  | .insertNotification _, rows => rows
  | .takeLease .., rows => rows
  | .upsertClientService .., rows => rows
  | .extendLease .., rows => rows
  | .finishJob .., rows => rows
  | .upsertDonation .., rows => rows
  | .markDelivered .., rows => rows
  | .selectExpired _, _ => 0
  | .selectLastServed _, _ => 0
  | .selectQueuedJob _, _ => 0
  | .selectQueuedJobs, _ => 0
  | .selectJob _, _ => 0
  | .selectJobByObjectKey _, _ => 0
  | .selectDonation _, _ => 0
  | .selectInputKey .., _ => 0
  | .selectStatus _, _ => 0
  | .selectPending _, _ => 0

end Statement

/-! ## Transactions -/

/-- An open transaction: the row versions it wrote, whether it holds the
advisory lock, and the reading with which it last selected expired jobs. -/
structure Transaction (Options Solution : Type) where
  pid : ℕ
  written : Database Options Solution
  holdsLock : Bool
  selectedAt : Option Time

def Database.overlay (base versions : Database Options Solution) : Database Options Solution where
  jobs := base.jobs.overlay versions.jobs
  donations := base.donations.overlay versions.donations
  clientService := base.clientService.overlay versions.clientService
  outbox := base.outbox.overlay versions.outbox

/-- A statement of another transaction has to wait for this one. -/
def Transaction.blocks (transaction : Transaction Options Solution)
    (statement : Statement Options Solution) : Bool :=
  (transaction.holdsLock && statement.takesLock) ||
    (statement.jobTarget.any fun id => (transaction.written.jobs.find? id).isSome) ||
    (statement.donationTarget.any fun id => (transaction.written.donations.find? id).isSome) ||
    (statement.clientTarget.any fun owner =>
      (transaction.written.clientService.find? owner).isSome) ||
    statement.outboxTarget.any fun id => (transaction.written.outbox.find? id).isSome

/-- The transaction after a statement that left `db` in its view. -/
def Transaction.after (transaction : Transaction Options Solution)
    (statement : Statement Options Solution) (affected : ℕ) (db : Database Options Solution) :
    Transaction Options Solution where
  pid := transaction.pid
  written :=
    if affected = 0 then transaction.written
    else
      { jobs := transaction.written.jobs.putOption (statement.jobTarget.bind db.jobs.find?)
        donations := transaction.written.donations.putOption
          (statement.donationTarget.bind db.donations.find?)
        clientService := transaction.written.clientService.putOption
          (statement.clientTarget.bind db.clientService.find?)
        outbox := transaction.written.outbox.putOption
          (statement.outboxTarget.bind db.outbox.find?) }
  holdsLock := transaction.holdsLock || statement.takesLock
  selectedAt :=
    match statement with
    | .selectExpired now => some now
    | _ => transaction.selectedAt

structure PostgresState (Options Solution : Type) where
  clock : Time
  committed : Database Options Solution
  transactions : KeyedTable (Transaction Options Solution) ℕ Transaction.pid

namespace PostgresState

/-- What a statement of this process reads. -/
def view (store : PostgresState Options Solution) (pid : ℕ) : Database Options Solution :=
  match store.transactions.find? pid with
  | some transaction => store.committed.overlay transaction.written
  | none => store.committed

/-- The state after a statement; outside a transaction it commits at once. -/
def recorded (store : PostgresState Options Solution) (pid : ℕ)
    (statement : Statement Options Solution) (affected : ℕ) (db : Database Options Solution) :
    PostgresState Options Solution :=
  match store.transactions.find? pid with
  | none => { store with committed := db }
  | some transaction =>
      { store with
        transactions := store.transactions.put (transaction.after statement affected db) }

/-- No other transaction makes this statement wait. -/
def Unblocked (store : PostgresState Options Solution) (pid : ℕ)
    (statement : Statement Options Solution) : Prop :=
  ∀ transaction ∈ store.transactions.rows, transaction.pid ≠ pid →
    transaction.blocks statement = false

def begun (store : PostgresState Options Solution) (pid : ℕ) :
    PostgresState Options Solution :=
  { store with transactions := store.transactions.put ⟨pid, .empty, false, none⟩ }

def ended (store : PostgresState Options Solution) (pid : ℕ) :
    PostgresState Options Solution :=
  { store with transactions := store.transactions.erase pid }

/-- How PostgreSQL may answer a request of a process. -/
def Answers (pid : ℕ) (store : PostgresState Options Solution) :
    (r : SqlRequest Options Solution) → r.Response → PostgresState Options Solution → Prop
  | .begin, _, after => store.transactions.find? pid = none ∧ after = store.begun pid
  | .beginImmediate, _, _ => False
  | .commit, _, after =>
      (store.transactions.find? pid).isSome ∧
        after = { store.ended pid with committed := store.view pid }
  | .rollback, _, after => after = store.ended pid
  | .utcNow, now, after => now = store.clock ∧ after = store
  | .uuidV7, _, after => after = store
  | .query statement, reply, after =>
      ∃ db, (store.view pid).run statement = .ok (db, reply) ∧
        (statement.affected reply ≠ 0 → store.Unblocked pid statement) ∧
        after = store.recorded pid statement (statement.affected reply) db

end PostgresState

/-- The calls that take part in leasing. -/
def RepositoryCall.leases : RepositoryCall Options Solution → Bool
  | .claim .. => true
  | .heartbeat .. => true
  | .inputKey .. => true
  | .complete .. => true
  | .pendingNotifications _ => true
  | _ => false

/-- Any number of replicas executing leasing calls.  A replica may lose its
connection at any request; the clock moves forward by itself. -/
def postgres : System (RepositoryCall Options Solution) (SqlRequest Options Solution)
    SqlRequest.Response Fault RepositoryCall.Result (PostgresState Options Solution) where
  body := RepositoryCall.sqlProgram .postgres
  admits := fun pid store call =>
    call.leases = true ∧ store.transactions.find? pid = none
  answers := PostgresState.Answers
  halts := fun pid store after => after = store.ended pid
  environment := fun store after =>
    ∃ clock, store.clock ≤ clock ∧ after = { store with clock := clock }

/-! ## The invariant of open transactions -/

/-- The transaction holds an uncommitted version of the job. -/
def Transaction.Wrote (transaction : Transaction Options Solution) (id : JobId) : Prop :=
  (transaction.written.jobs.find? id).isSome

namespace PostgresState

/-- A row of this job that is committed as `solving` has run out of its lease. -/
def Lapsed (store : PostgresState Options Solution) (id : JobId) : Prop :=
  ∀ row, store.committed.jobs.find? id = some row → row.status = .solving →
    ∃ expires, row.leaseExpiresAt = some expires ∧ expires ≤ store.clock

/-- Readings lie in the past, no two open transactions hold versions of one
job, and a job of which one does is not under a live lease. -/
structure LockInvariant (store : PostgresState Options Solution) : Prop where
  selected : ∀ pid transaction now, store.transactions.find? pid = some transaction →
    transaction.selectedAt = some now → now ≤ store.clock
  exclusive : ∀ pid other first second id, store.transactions.find? pid = some first →
    store.transactions.find? other = some second → first.Wrote id →
      second.Wrote id → pid = other
  lapsed : ∀ pid transaction id, store.transactions.find? pid = some transaction →
    transaction.Wrote id → store.Lapsed id

/-- The requests the leasing calls may issue in this state. -/
def Permits (store : PostgresState Options Solution) (pid : ℕ) :
    SqlRequest Options Solution → Prop
  | .query (.selectExpired now) => now ≤ store.clock
  | .query (.requeueExpired _) =>
      ∃ transaction now, store.transactions.find? pid = some transaction ∧
        transaction.selectedAt = some now
  | .query (.takeLease ..) => (store.transactions.find? pid).isSome
  | .query (.extendLease _ _ _ now) =>
      store.transactions.find? pid = none ∧ now ≤ store.clock ∧ now.FourDigitYear
  | .query (.finishJob _ now _ _ _ _) =>
      store.transactions.find? pid = none ∧ now ≤ store.clock ∧ now.FourDigitYear
  | .query (.insertJob _) => False
  | _ => True

/-- The row a reclaiming `UPDATE` meets is no longer `solving`, or its expiry
is still not after the reading with which the call selected it; and readings
lie in the years that are written with four digits. -/
def ReclaimRechecks (pid : ℕ) (store : PostgresState Options Solution) :
    (r : SqlRequest Options Solution) → r.Response → Prop
  | .query (.requeueExpired id), _ =>
      ∀ row transaction now, (store.view pid).jobs.find? id = some row →
        row.status = .solving → store.transactions.find? pid = some transaction →
          transaction.selectedAt = some now →
            ∃ expires, row.leaseExpiresAt = some expires ∧ expires ≤ now
  | .utcNow, now => Time.FourDigitYear now
  | _, _ => True

section Views

variable {store : PostgresState Options Solution} {pid : ℕ}
  {transaction : Transaction Options Solution} {id : JobId}

omit [TimeStore] in
theorem find?_view_of_some (htransaction : store.transactions.find? pid = some transaction)
    (id : JobId) :
    (store.view pid).jobs.find? id =
      (transaction.written.jobs.find? id).or (store.committed.jobs.find? id) := by
  simp only [view, htransaction, Database.overlay]
  exact KeyedTable.find?_overlay _ _ id

omit [TimeStore] in
theorem view_of_none (hnone : store.transactions.find? pid = none) :
    store.view pid = store.committed := by
  simp only [view, hnone]

omit [TimeStore] in
/-- The job whose version a statement adds is its target. -/
theorem wrote_after {statement : Statement Options Solution} {affected : ℕ}
    {db : Database Options Solution}
    (hwrote : (transaction.after statement affected db).Wrote id) :
    transaction.Wrote id ∨ (statement.jobTarget = some id ∧ affected ≠ 0) := by
  unfold Transaction.Wrote Transaction.after at hwrote
  by_cases hzero : affected = 0
  · simp only [if_pos hzero] at hwrote
    exact .inl hwrote
  · simp only [if_neg hzero] at hwrote
    by_cases htarget : statement.jobTarget = some id
    · exact .inr ⟨htarget, hzero⟩
    · left
      rw [KeyedTable.find?_putOption_of_ne] at hwrote
      · exact hwrote
      · intro row hrow hkey
        obtain ⟨target, heq, hfind⟩ := Option.bind_eq_some_iff.mp hrow
        have hid : row.id = target := KeyedTable.key_of_find? hfind
        exact htarget (by rw [heq, ← hid, hkey])

omit [TimeStore] in
/-- A conditional update that affects a row met its condition. -/
theorem met_of_affected {db : Database Options Solution}
    {condition : JobRow Options Solution → Bool}
    {assign : JobRow Options Solution → JobRow Options Solution}
    {hassign : ∀ row, (assign row).id = row.id}
    (haffected : (db.updateJob id condition assign hassign).2 ≠ 0) :
    ∃ row, db.jobs.find? id = some row ∧ condition row = true := by
  rw [Database.updateJob_affected] at haffected
  cases hfind : db.jobs.find? id with
  | none => simp [hfind] at haffected
  | some row =>
      by_cases hcondition : condition row = true
      · exact ⟨row, rfl, hcondition⟩
      · simp [hfind, hcondition] at haffected

end Views

/-! ## What one request does to the invariant -/

section Steps

variable {store after : PostgresState Options Solution} {pid : ℕ}
  {r : SqlRequest Options Solution} {reply : r.Response}

/-- The clock and the transactions of the others do not move. -/
def LeavesOthers (pid : ℕ) (store after : PostgresState Options Solution) : Prop :=
  after.clock = store.clock ∧
    ∀ other, other ≠ pid → after.transactions.find? other = store.transactions.find? other

/-- A statement inside a transaction that writes a job finds it without a live
lease: it takes a queued job, or reclaims one whose lease it has rechecked. -/
theorem lapsed_of_write {statement : Statement Options Solution}
    {answer : statement.Answer} {db : Database Options Solution}
    {transaction : Transaction Options Solution} {id : JobId}
    (hinv : store.LockInvariant) (hpermits : store.Permits pid (.query statement))
    (hrechecks : ReclaimRechecks pid store (.query statement) answer)
    (htransaction : store.transactions.find? pid = some transaction)
    (hrun : (store.view pid).run statement = .ok (db, answer))
    (htarget : statement.jobTarget = some id) (haffected : statement.affected answer ≠ 0) :
    store.Lapsed id := by
  intro row hfind hsolving
  have hview := find?_view_of_some htransaction id
  cases hwritten : transaction.written.jobs.find? id with
  | some version =>
      exact hinv.lapsed pid transaction id htransaction (by simp [Transaction.Wrote, hwritten])
        row hfind hsolving
  | none =>
      rw [hwritten, Option.none_or, hfind] at hview
      cases statement with
      | requeueExpired target =>
          cases htarget
          obtain ⟨_, now, hsome, hselected⟩ := hpermits
          rw [htransaction] at hsome
          cases hsome
          obtain ⟨expires, hexpires, hle⟩ :=
            hrechecks row transaction now hview hsolving htransaction hselected
          exact ⟨expires, hexpires,
            hle.trans (hinv.selected pid transaction now htransaction hselected)⟩
      | takeLease now token expires target =>
          cases htarget
          simp only [Database.run, Except.ok.injEq] at hrun
          have hcount : answer = ((store.view pid).updateJob id
              (fun row => row.status = .queued) (fun row => row.taken now token expires)
              fun row => row.taken_id now token expires).2 := congrArg Prod.snd hrun.symm
          rw [Statement.affected, hcount] at haffected
          obtain ⟨row', hfind', hqueued⟩ := met_of_affected haffected
          rw [hview] at hfind'
          cases hfind'
          simp only [decide_eq_true_eq] at hqueued
          rw [hqueued] at hsolving
          cases hsolving
      | extendLease expires target token now =>
          rw [hpermits.1] at htransaction
          cases htransaction
      | finishJob status now solution error target token =>
          rw [hpermits.1] at htransaction
          cases htransaction
      | insertJob job => exact hpermits.elim
      | _ => cases htarget

omit [TimeStore] in
theorem recorded_of_some {statement : Statement Options Solution} {affected : ℕ}
    {db : Database Options Solution} {transaction : Transaction Options Solution}
    (htransaction : store.transactions.find? pid = some transaction) :
    store.recorded pid statement affected db =
      { store with
        transactions := store.transactions.put (transaction.after statement affected db) } := by
  simp only [recorded, htransaction]

omit [TimeStore] in
theorem recorded_of_none {statement : Statement Options Solution} {affected : ℕ}
    {db : Database Options Solution} (hnone : store.transactions.find? pid = none) :
    store.recorded pid statement affected db = { store with committed := db } := by
  simp only [recorded, hnone]

omit [TimeStore] in
theorem find?_recorded {transaction : Transaction Options Solution}
    (statement : Statement Options Solution) (affected : ℕ) (db : Database Options Solution)
    (htransaction : store.transactions.find? pid = some transaction) :
    (store.recorded pid statement affected db).transactions.find? pid =
      some (transaction.after statement affected db) := by
  rw [recorded_of_some htransaction, KeyedTable.find?_put]
  exact if_pos (show transaction.pid = pid from KeyedTable.key_of_find? htransaction)

omit [TimeStore] in
/-- An unblocked statement writes no job of which another open transaction
holds a version. -/
theorem not_wrote_of_unblocked {statement : Statement Options Solution}
    {transaction : Transaction Options Solution} {other : ℕ} {id : JobId}
    (hunblocked : store.Unblocked pid statement) (hother : other ≠ pid)
    (htransaction : store.transactions.find? other = some transaction)
    (htarget : statement.jobTarget = some id) : ¬ transaction.Wrote id := by
  have hpid : transaction.pid = other := KeyedTable.key_of_find? htransaction
  have hblocks := hunblocked transaction (KeyedTable.mem_of_find? htransaction)
    (by rw [hpid]; exact hother)
  simp only [Transaction.blocks, htarget, Option.any_some, Bool.or_eq_false_iff] at hblocks
  intro hwrote
  have hnone := hblocks.1.1.1.2
  rw [Transaction.Wrote, hnone] at hwrote
  cases hwrote

omit [TimeStore] in
/-- Changing the versions of one transaction, none of them under a live lease
or held by another transaction, keeps the invariant. -/
theorem LockInvariant.put (hinv : store.LockInvariant)
    {transaction : Transaction Options Solution}
    (hselected : ∀ now, transaction.selectedAt = some now → now ≤ store.clock)
    (hexclusive : ∀ other second id, other ≠ transaction.pid →
      store.transactions.find? other = some second → transaction.Wrote id → ¬ second.Wrote id)
    (hlapsed : ∀ id, transaction.Wrote id → store.Lapsed id) :
    LockInvariant { store with transactions := store.transactions.put transaction } := by
  have hfind : ∀ pid found,
      (store.transactions.put transaction).find? pid = some found →
        (transaction.pid = pid ∧ found = transaction) ∨
          (pid ≠ transaction.pid ∧ store.transactions.find? pid = some found) := by
    intro pid found hfound
    rw [KeyedTable.find?_put] at hfound
    split_ifs at hfound with hpid
    · exact .inl ⟨hpid, (Option.some.inj hfound).symm⟩
    · exact .inr ⟨fun h => hpid h.symm, hfound⟩
  refine ⟨?_, ?_, ?_⟩
  · intro pid found now hfound hnow
    rcases hfind pid found hfound with ⟨_, rfl⟩ | ⟨_, hold⟩
    · exact hselected now hnow
    · exact hinv.selected pid found now hold hnow
  · intro pid other first second id hfirst hsecond hwrote hwrote'
    rcases hfind pid first hfirst with ⟨hpid, rfl⟩ | ⟨hpid, hold⟩
    · rcases hfind other second hsecond with ⟨hother, _⟩ | ⟨hother, hold'⟩
      · exact hpid.symm.trans hother
      · exact (hexclusive other second id hother hold' hwrote hwrote').elim
    · rcases hfind other second hsecond with ⟨_, rfl⟩ | ⟨_, hold'⟩
      · exact (hexclusive pid first id hpid hold hwrote' hwrote).elim
      · exact hinv.exclusive pid other first second id hold hold' hwrote hwrote'
  · intro pid found id hfound hwrote
    rcases hfind pid found hfound with ⟨_, rfl⟩ | ⟨_, hold⟩
    · exact hlapsed id hwrote
    · exact hinv.lapsed pid found id hold hwrote

omit [TimeStore] in
/-- Ending a transaction keeps the invariant for the others. -/
theorem LockInvariant.ended (hinv : store.LockInvariant) (pid : ℕ) :
    (store.ended pid).LockInvariant := by
  have hfind : ∀ other found, (store.transactions.erase pid).find? other = some found →
      store.transactions.find? other = some found := by
    intro other found hfound
    rw [KeyedTable.find?_erase] at hfound
    split_ifs at hfound
    exact hfound
  refine ⟨?_, ?_, ?_⟩
  · intro other found now hfound
    exact hinv.selected other found now (hfind other found hfound)
  · intro first second found found' id hfound hfound'
    exact hinv.exclusive first second found found' id (hfind _ _ hfound) (hfind _ _ hfound')
  · intro other found id hfound
    exact hinv.lapsed other found id (hfind _ _ hfound)

omit [TimeStore] in
/-- Replacing the committed tables keeps the invariant when every job of which
a transaction holds a version keeps its committed row. -/
theorem LockInvariant.commit (hinv : store.LockInvariant)
    {committed : Database Options Solution}
    (hkept : ∀ pid transaction id, store.transactions.find? pid = some transaction →
      transaction.Wrote id → committed.jobs.find? id = store.committed.jobs.find? id) :
    LockInvariant { store with committed := committed } := by
  refine ⟨hinv.selected, hinv.exclusive, ?_⟩
  intro pid transaction id htransaction hwrote row hfind hsolving
  have hsame := hkept pid transaction id htransaction hwrote
  simp only at hfind
  rw [hsame] at hfind
  exact hinv.lapsed pid transaction id htransaction hwrote row hfind hsolving

omit [TimeStore] in
theorem LockInvariant.tick (hinv : store.LockInvariant) {clock : Time}
    (hclock : store.clock ≤ clock) : LockInvariant { store with clock := clock } := by
  refine ⟨?_, hinv.exclusive, ?_⟩
  · intro pid transaction now htransaction hnow
    exact (hinv.selected pid transaction now htransaction hnow).trans hclock
  · intro pid transaction id htransaction hwrote row hfind hsolving
    obtain ⟨expires, hexpires, hle⟩ :=
      hinv.lapsed pid transaction id htransaction hwrote row hfind hsolving
    exact ⟨expires, hexpires, hle.trans hclock⟩

/-- Outside a transaction the leasing calls write only the row of their lease. -/
theorem find?_of_autocommit {statement : Statement Options Solution}
    {answer : statement.Answer} {db : Database Options Solution}
    (hpermits : store.Permits pid (.query statement))
    (hnone : store.transactions.find? pid = none)
    (hrun : store.committed.run statement = .ok (db, answer)) {id : JobId}
    (htarget : statement.jobTarget = some id → statement.affected answer = 0) :
    db.jobs.find? id = store.committed.jobs.find? id := by
  have hupdate : ∀ (target : JobId) (condition : JobRow Options Solution → Bool)
      (assign : JobRow Options Solution → JobRow Options Solution)
      (hassign : ∀ row, (assign row).id = row.id),
      (target = id → (store.committed.updateJob target condition assign hassign).2 = 0) →
      (store.committed.updateJob target condition assign hassign).1.jobs.find? id =
        store.committed.jobs.find? id := by
    intro target condition assign hassign hzero
    rw [Database.find?_updateJob]
    cases hfind : store.committed.jobs.find? id with
    | none => rfl
    | some row =>
        simp only [Option.map_some, Option.some.injEq, ite_eq_right_iff]
        rintro ⟨hid, hcondition⟩
        have hcount := hzero hid.symm
        rw [← hid, Database.updateJob_affected, hfind] at hcount
        simp [hcondition] at hcount
  cases statement with
  | extendLease expires target token now =>
      obtain ⟨hdb, hanswer⟩ := Prod.ext_iff.mp (Except.ok.inj hrun)
      simp only at hdb hanswer
      rw [← hdb]
      refine hupdate _ _ _ _ ?_
      rintro rfl
      exact hanswer.trans (htarget rfl)
  | finishJob status now solution error target token =>
      obtain ⟨hdb, hanswer⟩ := Prod.ext_iff.mp (Except.ok.inj hrun)
      simp only at hdb hanswer
      rw [← hdb]
      refine hupdate _ _ _ _ ?_
      rintro rfl
      exact hanswer.trans (htarget rfl)
  | requeueExpired target =>
      obtain ⟨_, _, hsome, _⟩ := hpermits
      rw [hnone] at hsome
      cases hsome
  | takeLease now token expires target =>
      rw [Permits, hnone] at hpermits
      cases hpermits
  | insertJob job => exact hpermits.elim
  | upsertDonation target donation =>
      simp only [Database.run, Database.upsertDonation] at hrun
      split_ifs at hrun
      simp only [Except.ok.injEq, Prod.mk.injEq] at hrun
      rw [← hrun.1]
  | insertNotification target =>
      simp only [Database.run] at hrun
      split at hrun
      · cases hrun
      · simp only [Except.ok.injEq, Prod.mk.injEq] at hrun
        rw [← hrun.1]
  | _ =>
      simp only [Database.run, Except.ok.injEq, Prod.mk.injEq] at hrun
      rw [← hrun.1]

/-- Serving a permitted request whose reclaiming rechecks keeps the invariant
and leaves the other processes alone. -/
theorem LockInvariant.served (hinv : store.LockInvariant) (hpermits : store.Permits pid r)
    (hanswers : Answers pid store r reply after)
    (hrechecks : ReclaimRechecks pid store r reply) :
    after.LockInvariant ∧ LeavesOthers pid store after := by
  have hself : LeavesOthers pid store store := ⟨rfl, fun _ _ => rfl⟩
  have hended : LeavesOthers pid store (store.ended pid) :=
    ⟨rfl, fun other hother => by simp [PostgresState.ended, KeyedTable.find?_erase, hother]⟩
  have hput : ∀ transaction : Transaction Options Solution, transaction.pid = pid →
      LeavesOthers pid store
        { store with transactions := store.transactions.put transaction } := by
    intro transaction hpid
    refine ⟨rfl, fun other hother => ?_⟩
    rw [KeyedTable.find?_put, if_neg]
    rw [hpid]
    exact fun h => hother h.symm
  cases r with
  | begin =>
      obtain ⟨_, rfl⟩ := hanswers
      refine ⟨hinv.put (by simp) ?_ ?_, hput _ rfl⟩
      · intro other second id _ _ hwrote
        cases hwrote
      · intro id hwrote
        cases hwrote
  | beginImmediate => exact hanswers.elim
  | commit =>
      obtain ⟨hsome, rfl⟩ := hanswers
      obtain ⟨transaction, htransaction⟩ := Option.isSome_iff_exists.mp hsome
      refine ⟨(hinv.ended pid).commit ?_, hended⟩
      intro other second id hsecond hwrote
      have hsecond' : store.transactions.find? other = some second ∧ other ≠ pid := by
        simp only [PostgresState.ended, KeyedTable.find?_erase] at hsecond
        split_ifs at hsecond with hother
        exact ⟨hsecond, hother⟩
      have hnone : transaction.written.jobs.find? id = none := by
        by_contra hsome
        exact hsecond'.2 (hinv.exclusive other pid second transaction id hsecond'.1 htransaction
          hwrote (Option.isSome_iff_ne_none.mpr hsome))
      simpa only [PostgresState.ended, hnone, Option.none_or] using find?_view_of_some htransaction id
  | rollback =>
      obtain rfl := hanswers
      exact ⟨hinv.ended pid, hended⟩
  | utcNow =>
      obtain ⟨_, rfl⟩ := hanswers
      exact ⟨hinv, hself⟩
  | uuidV7 =>
      obtain rfl := hanswers
      exact ⟨hinv, hself⟩
  | query statement =>
      obtain ⟨db, hrun, hunblocked, rfl⟩ := hanswers
      cases htransaction : store.transactions.find? pid with
      | some transaction =>
          rw [recorded_of_some htransaction]
          have hpid : transaction.pid = pid := KeyedTable.key_of_find? htransaction
          refine ⟨hinv.put ?_ ?_ ?_, hput _ hpid⟩
          · intro now hnow
            cases statement with
            | selectExpired reading =>
                cases hnow
                exact hpermits
            | _ => exact hinv.selected pid transaction now htransaction hnow
          · intro other second id hother hsecond hwrote hwrote'
            rcases wrote_after hwrote with hold | ⟨htarget, haffected⟩
            · exact hother ((hinv.exclusive other pid second transaction id hsecond htransaction
                hwrote' hold).trans hpid.symm)
            · exact not_wrote_of_unblocked (hunblocked haffected)
                (fun h => hother (h.trans hpid.symm)) hsecond htarget hwrote'
          · intro id hwrote
            rcases wrote_after hwrote with hold | ⟨htarget, haffected⟩
            · exact hinv.lapsed pid transaction id htransaction hold
            · exact lapsed_of_write hinv hpermits hrechecks htransaction hrun htarget haffected
      | none =>
          rw [recorded_of_none htransaction]
          rw [view_of_none htransaction] at hrun
          refine ⟨hinv.commit ?_, rfl, fun _ _ => rfl⟩
          intro other second id hsecond hwrote
          refine find?_of_autocommit hpermits htransaction hrun ?_
          intro htarget
          by_contra haffected
          have hother : other ≠ pid := by
            rintro rfl
            rw [htransaction] at hsecond
            cases hsecond
          exact not_wrote_of_unblocked (hunblocked haffected) hother hsecond htarget hwrote

end Steps

end PostgresState

end SeizaServer
