import SeizaServer.DynamoRepository
import SeizaServer.InterleavedPrograms

/-!
# Lease exclusivity of the DynamoDB repository

Seen from one job, the accepted writes of the table are a history of the
exclusive lease protocol, whatever their authors had read before.  What a call
returned is traced back to the writes it issued.
-/

namespace SeizaServer

open Interaction LeaseProtocol Transition

variable {Options Solution : Type}

section Stores

variable [TimeStore]

/-! ## Accepted writes as protocol events -/

def JobAttributes.completion (attributes : JobAttributes Options Solution) : Completion Solution :=
  ⟨attributes.status, attributes.completedAt, attributes.solutionJson.join, attributes.error.join⟩

/-- The lease register a job item represents. -/
def JobAttributes.phase (attributes : JobAttributes Options Solution) :
    Phase String Time (Completion Solution) :=
  match attributes.status with
  | .queued => .idle
  | .solving =>
      match attributes.leaseToken, attributes.leaseExpiresAt with
      | some token, some expires => .held token expires
      | _, _ => .idle
  | .succeeded => .finished attributes.completion
  | .failed => .finished attributes.completion

def DynamoTable.phase (table : DynamoTable Options Solution) (id : JobId) :
    Phase String Time (Completion Solution) :=
  ((table.item id).attributes.map JobAttributes.phase).getD .idle

def JobUpdate.leaseEvents : JobUpdate Solution → List (LeaseEvent Solution)
  | .requeue now => [.lapse now]
  | .renew leaseToken _ expires => [.renew leaseToken expires]
  | .complete leaseToken now solution error =>
      [.finish leaseToken ⟨completionStatus solution, some now, solution, error⟩]
  | .donate _ => []
  | .markDelivered _ => []

/-- A claim of an expired lease is a lapse and a grant at once. -/
def ClaimUpdate.leaseEvents (update : ClaimUpdate) : List (LeaseEvent Solution) :=
  match update.eligibility with
  | .queued => [.grant update.leaseToken update.leaseExpiresAt]
  | .expiredLease => [.lapse update.now, .grant update.leaseToken update.leaseExpiresAt]

/-- The events an accepted write performs on the job. -/
def DynamoWrite.leaseEvents (id : JobId) :
    DynamoWrite Options Solution → List (LeaseEvent Solution)
  | .enqueue _ => []
  | .claim target _ change => if target = id then change.leaseEvents else []
  | .update target change => if target = id then change.leaseEvents else []

/-- The history of one job in a log of writes. -/
def leaseLog {A : Type} (id : JobId) (log : List (A × DynamoWrite Options Solution)) :
    List (LeaseEvent Solution) :=
  log.flatMap fun entry => entry.2.leaseEvents id

/-- Every leased job has a token and an expiry. -/
def DynamoTable.WellLeased (table : DynamoTable Options Solution) : Prop :=
  ∀ id attributes, (table.item id).attributes = some attributes → attributes.status = .solving →
    ∃ token expires, attributes.leaseToken = some token ∧ attributes.leaseExpiresAt = some expires

section Writes

variable {table after : DynamoTable Options Solution}

omit [TimeStore] in
private theorem attributes_of_any {item : JobItem Options Solution}
    {p : JobAttributes Options Solution → Bool} (hany : item.attributes.any p = true) :
    ∃ attributes, item.attributes = some attributes ∧ p attributes = true :=
  (Option.any_eq_true _ _).mp hany

theorem JobAttributes.expiredBy_iff {attributes : JobAttributes Options Solution} {now : Time} :
    attributes.expiredBy now = true ↔ attributes.status = .solving ∧
      ∃ expires, attributes.leaseExpiresAt = some expires ∧ TimeStore.Lapsed expires now := by
  simp [JobAttributes.expiredBy, Option.any_eq_true, TimeStore.Lapsed]

theorem JobAttributes.leasedTo_iff {attributes : JobAttributes Options Solution} {token : String}
    {now : Time} :
    attributes.leasedTo token now = true ↔ attributes.status = .solving ∧
      attributes.leaseToken = some token ∧
        ∃ expires, attributes.leaseExpiresAt = some expires ∧
          (TimeStore.compare expires now).isGT = true := by
  simp [JobAttributes.leasedTo, Option.any_eq_true, and_assoc]

/-- Every accepted write keeps leased jobs well formed. -/
theorem DynamoTable.WellLeased.apply {write : DynamoWrite Options Solution}
    (hwell : table.WellLeased) (happly : table.apply write = some after) : after.WellLeased := by
  intro id attributes hattributes hsolving
  rcases DynamoTable.item_of_apply happly id with ⟨_, hitem⟩ | ⟨job, _, _, _, hitem⟩ |
    ⟨_, update, _, hcondition, hitem⟩ | ⟨update, _, hcondition, hitem⟩
  · exact hwell id attributes (hitem ▸ hattributes) hsolving
  · rw [hitem] at hattributes
    cases hattributes
    cases hsolving
  · rw [hitem] at hattributes
    obtain ⟨old, _, rfl⟩ := Option.map_eq_some_iff.mp hattributes
    exact ⟨update.leaseToken, update.leaseExpiresAt, rfl, rfl⟩
  · rw [hitem] at hattributes
    obtain ⟨old, hold, rfl⟩ := Option.map_eq_some_iff.mp hattributes
    cases update with
    | requeue now => cases hsolving
    | renew token now expires =>
        obtain ⟨oldToken, _, htoken, _⟩ := hwell id old hold hsolving
        exact ⟨oldToken, expires, htoken, rfl⟩
    | complete token now solution error =>
        have hterminal := terminal_completionStatus solution
        rw [show completionStatus solution = .solving from hsolving] at hterminal
        cases hterminal
    | donate donation => exact hwell id old hold hsolving
    | markDelivered now => exact hwell id old hold hsolving

omit [TimeStore] in
private theorem phase_of_attributes {id : JobId} {attributes : JobAttributes Options Solution}
    (hattributes : (table.item id).attributes = some attributes) :
    table.phase id = attributes.phase := by
  rw [DynamoTable.phase, hattributes]
  rfl

omit [TimeStore] in
private theorem phase_of_leased {attributes : JobAttributes Options Solution} {token : String}
    {expires : Time} (hstatus : attributes.status = .solving)
    (htoken : attributes.leaseToken = some token)
    (hexpires : attributes.leaseExpiresAt = some expires) :
    attributes.phase = .held token expires := by
  simp [JobAttributes.phase, hstatus, htoken, hexpires]

/-- A claim grants a queued job, or one whose lease has lapsed. -/
theorem allows_claimUpdate {update : ClaimUpdate} {attributes : JobAttributes Options Solution}
    (hwell : attributes.status = .solving → ∃ token expires,
      attributes.leaseToken = some token ∧ attributes.leaseExpiresAt = some expires)
    (hcondition : (match update.eligibility with
      | .queued => decide (attributes.status = .queued)
      | .expiredLease => attributes.expiredBy update.now) = true) :
    Allows TimeStore.Lapsed attributes.phase update.leaseEvents (update.assign attributes).phase := by
  have hafter : (update.assign attributes).phase =
      .held update.leaseToken update.leaseExpiresAt := phase_of_leased rfl rfl rfl
  rw [hafter, ClaimUpdate.leaseEvents]
  cases heligibility : update.eligibility with
  | queued =>
      rw [heligibility] at hcondition
      have hidle : attributes.phase = .idle := by
        simp [JobAttributes.phase, of_decide_eq_true hcondition]
      rw [hidle]
      exact allows_singleton.mpr (.grant _ _)
  | expiredLease =>
      rw [heligibility] at hcondition
      obtain ⟨hsolving, expires, hexpires, hle⟩ := JobAttributes.expiredBy_iff.mp hcondition
      obtain ⟨token, _, htoken, _⟩ := hwell hsolving
      rw [phase_of_leased hsolving htoken hexpires]
      exact ⟨.idle, .lapse token expires update.now hle, allows_singleton.mpr (.grant _ _)⟩

/-- An update of an item is what the protocol allows on its lease. -/
theorem allows_jobUpdate {update : JobUpdate Solution} {item : JobItem Options Solution}
    {attributes : JobAttributes Options Solution} (hattributes : item.attributes = some attributes)
    (hwell : attributes.status = .solving → ∃ token expires,
      attributes.leaseToken = some token ∧ attributes.leaseExpiresAt = some expires)
    (hcondition : update.condition item = true) :
    Allows TimeStore.Lapsed attributes.phase update.leaseEvents (update.assign attributes).phase := by
  cases update with
  | requeue now =>
      obtain ⟨old, hold, hexpired⟩ := attributes_of_any hcondition
      rw [hattributes] at hold
      cases hold
      obtain ⟨hsolving, expires, hexpires, hle⟩ := JobAttributes.expiredBy_iff.mp hexpired
      obtain ⟨token, _, htoken, _⟩ := hwell hsolving
      rw [phase_of_leased hsolving htoken hexpires]
      exact allows_singleton.mpr (.lapse token expires now hle)
  | renew token now later =>
      obtain ⟨old, hold, hleased⟩ := attributes_of_any hcondition
      rw [hattributes] at hold
      cases hold
      obtain ⟨hsolving, htoken, expires, hexpires, _⟩ := JobAttributes.leasedTo_iff.mp hleased
      have hrenewed : ((JobUpdate.renew token now later).assign attributes).phase =
          .held token later := phase_of_leased hsolving htoken rfl
      rw [phase_of_leased hsolving htoken hexpires, hrenewed]
      exact allows_singleton.mpr (.renew token expires later)
  | complete token now solution error =>
      obtain ⟨old, hold, hleased⟩ := attributes_of_any hcondition
      rw [hattributes] at hold
      cases hold
      obtain ⟨hsolving, htoken, expires, hexpires, _⟩ := JobAttributes.leasedTo_iff.mp hleased
      have hafter : ((JobUpdate.complete token now solution error).assign attributes).phase =
          .finished ⟨completionStatus solution, some now, solution, error⟩ := by
        cases solution <;> rfl
      rw [phase_of_leased hsolving htoken hexpires, hafter]
      exact allows_singleton.mpr (.finish token expires _)
  | donate donation =>
      refine run_nil.mpr ?_
      simp only [JobAttributes.phase, JobUpdate.assign, JobAttributes.completion]
  | markDelivered now => exact run_nil.mpr rfl

/-- An accepted write is what the protocol allows on every job. -/
theorem allows_write {write : DynamoWrite Options Solution} (hwell : table.WellLeased)
    (happly : table.apply write = some after) (id : JobId) :
    Allows TimeStore.Lapsed (table.phase id) (write.leaseEvents id) (after.phase id) := by
  rcases DynamoTable.item_of_apply happly id with ⟨htarget, hitem⟩ |
    ⟨job, rfl, _, hnone, hitem⟩ | ⟨owner, update, rfl, hcondition, hitem⟩ |
    ⟨update, rfl, hcondition, hitem⟩
  · have hevents : (write.leaseEvents id : List (LeaseEvent Solution)) = [] := by
      cases write with
      | enqueue job => rfl
      | claim target owner change => exact if_neg htarget
      | update target change => exact if_neg htarget
    rw [hevents]
    exact run_nil.mpr (by rw [DynamoTable.phase, DynamoTable.phase, hitem])
  · refine run_nil.mpr ?_
    rw [DynamoTable.phase, DynamoTable.phase, hitem, hnone]
    rfl
  · obtain ⟨attributes, hattributes, hclaimable⟩ := attributes_of_any hcondition
    have hafter : (after.item id).attributes = some (update.assign attributes) := by
      rw [hitem, ClaimUpdate.applyTo, hattributes]
      rfl
    rw [phase_of_attributes hattributes, phase_of_attributes hafter, DynamoWrite.leaseEvents,
      if_pos rfl]
    exact allows_claimUpdate (hwell id attributes hattributes) hclaimable
  · rw [DynamoWrite.leaseEvents, if_pos rfl]
    cases hattributes : (table.item id).attributes with
    | some attributes =>
        have hafter : (after.item id).attributes = some (update.assign attributes) := by
          rw [hitem, JobUpdate.applyTo, hattributes]
          rfl
        rw [phase_of_attributes hattributes, phase_of_attributes hafter]
        exact allows_jobUpdate hattributes (hwell id attributes hattributes) hcondition
    | none =>
        have hafter : (after.item id).attributes = none := by
          rw [hitem, JobUpdate.applyTo, hattributes]
          rfl
        rw [DynamoTable.phase, DynamoTable.phase, hattributes, hafter]
        cases update with
        | markDelivered now => exact run_nil.mpr rfl
        | _ =>
            simp only [JobUpdate.condition, hattributes, Option.any_none,
              Bool.false_eq_true] at hcondition

omit [TimeStore] in
theorem wellLeased_empty : (DynamoTable.empty : DynamoTable Options Solution).WellLeased := by
  intro id attributes hattributes
  cases hattributes

omit [TimeStore] in
theorem leaseLog_append {A : Type} (id : JobId)
    (first second : List (A × DynamoWrite Options Solution)) :
    leaseLog id (first ++ second) = leaseLog id first ++ leaseLog id second :=
  List.flatMap_append

/-- Every accepted log is a protocol history of every job. -/
theorem allows_log {A : Type} (id : JobId) {log : List (A × DynamoWrite Options Solution)}
    (hwell : table.WellLeased)
    (hreplay : VersionedStore.replay DynamoTable.apply table log = some after) :
    Allows TimeStore.Lapsed (table.phase id) (leaseLog id log) (after.phase id) := by
  induction log generalizing table with
  | nil =>
      cases hreplay
      exact run_nil.mpr rfl
  | cons entry rest ih =>
      obtain ⟨next, hnext, hrest⟩ := VersionedStore.replay_cons hreplay
      exact run_append.mpr ⟨_, allows_write hwell hnext id, ih (hwell.apply hnext) hrest⟩

/-! ## Between two claims -/

/-- The write is a successful claim of the job. -/
def DynamoWrite.Claims (id : JobId) (write : DynamoWrite Options Solution) : Prop :=
  ∃ owner update, write = .claim id owner update

/-- The write takes an expired lease of the job back, at this reading of its
author's clock. -/
def DynamoWrite.Lapses (id : JobId) (now : Time) (write : DynamoWrite Options Solution) : Prop :=
  write = .update id (.requeue now) ∨
    ∃ owner update, write = .claim id owner update ∧ update.eligibility = .expiredLease ∧
      update.now = now

/-- An accepted lapse saw an expiry its clock had reached, by their texts. -/
theorem expired_of_lapses {write : DynamoWrite Options Solution} {id : JobId} {now : Time}
    (hlapses : write.Lapses id now) (happly : table.apply write = some after) :
    ∃ attributes expires, (table.item id).attributes = some attributes ∧
      attributes.leaseExpiresAt = some expires ∧ TimeStore.Lapsed expires now := by
  rcases hlapses with rfl | ⟨owner, update, rfl, heligibility, rfl⟩
  · simp only [DynamoTable.apply] at happly
    split_ifs at happly with hcondition
    obtain ⟨attributes, hattributes, hexpired⟩ := attributes_of_any hcondition
    obtain ⟨_, expires, hexpires, hle⟩ := JobAttributes.expiredBy_iff.mp hexpired
    exact ⟨attributes, expires, hattributes, hexpires, hle⟩
  · simp only [DynamoTable.apply] at happly
    split_ifs at happly with hcondition
    obtain ⟨attributes, hattributes, hexpired⟩ := attributes_of_any hcondition
    rw [heligibility] at hexpired
    obtain ⟨_, expires, hexpires, hle⟩ := JobAttributes.expiredBy_iff.mp hexpired
    exact ⟨attributes, expires, hattributes, hexpires, hle⟩

/-- A job that is not queued becomes queued only by a lapse. -/
theorem not_queued_of_apply {write : DynamoWrite Options Solution} {id : JobId}
    {attributes : JobAttributes Options Solution}
    (hattributes : (table.item id).attributes = some attributes)
    (hstatus : attributes.status ≠ .queued) (happly : table.apply write = some after) :
    (∃ now, write.Lapses id now) ∨
      ∃ later, (after.item id).attributes = some later ∧ later.status ≠ .queued := by
  rcases DynamoTable.item_of_apply happly id with ⟨_, hitem⟩ |
    ⟨_, _, _, hnone, _⟩ | ⟨owner, update, rfl, _, hitem⟩ | ⟨update, rfl, _, hitem⟩
  · exact .inr ⟨attributes, hitem ▸ hattributes, hstatus⟩
  · rw [hnone] at hattributes
    cases hattributes
  · refine .inr ⟨update.assign attributes, ?_, nofun⟩
    rw [hitem, ClaimUpdate.applyTo, hattributes]
    rfl
  · have hafter : (after.item id).attributes = some (update.assign attributes) := by
      rw [hitem, JobUpdate.applyTo, hattributes]
      rfl
    cases update with
    | requeue now => exact .inl ⟨now, .inl rfl⟩
    | complete token now solution error =>
        refine .inr ⟨_, hafter, ?_⟩
        intro hqueued
        have hterminal := terminal_completionStatus solution
        rw [show completionStatus solution = .queued from hqueued] at hterminal
        cases hterminal
    | _ => exact .inr ⟨_, hafter, hstatus⟩

/-- From a job that is not queued to its next claim some clock sees its lease
lapse. -/
theorem lapse_before_claim {A : Type} {id : JobId} {attributes : JobAttributes Options Solution}
    (hattributes : (table.item id).attributes = some attributes)
    (hstatus : attributes.status ≠ .queued) {between : List (A × DynamoWrite Options Solution)}
    {claim : A × DynamoWrite Options Solution} (hclaims : claim.2.Claims id)
    (hreplay : VersionedStore.replay DynamoTable.apply table (between ++ [claim]) = some after) :
    ∃ before entry rest now version lapsed expires, between ++ [claim] = before ++ entry :: rest ∧
      entry.2.Lapses id now ∧
      VersionedStore.replay DynamoTable.apply table before = some version ∧
      (version.item id).attributes = some lapsed ∧ lapsed.leaseExpiresAt = some expires ∧
      TimeStore.Lapsed expires now := by
  induction between generalizing table attributes with
  | nil =>
      obtain ⟨next, hnext, _⟩ := VersionedStore.replay_cons hreplay
      have hlapses : ∃ now, claim.2.Lapses id now := by
        obtain ⟨owner, update, hclaim⟩ := hclaims
        rw [hclaim, DynamoTable.apply] at hnext
        split_ifs at hnext with hcondition
        obtain ⟨old, hold, hclaimable⟩ := attributes_of_any hcondition
        rw [hattributes] at hold
        cases hold
        cases heligibility : update.eligibility with
        | queued =>
            rw [heligibility] at hclaimable
            exact (hstatus (of_decide_eq_true hclaimable)).elim
        | expiredLease => exact ⟨update.now, .inr ⟨owner, update, hclaim, heligibility, rfl⟩⟩
      obtain ⟨now, hnow⟩ := hlapses
      obtain ⟨lapsed, expires, hlapsed, hexpires, hle⟩ := expired_of_lapses hnow hnext
      exact ⟨[], claim, [], now, table, lapsed, expires, rfl, hnow, rfl, hlapsed, hexpires, hle⟩
  | cons entry rest ih =>
      obtain ⟨next, hnext, hrest⟩ := VersionedStore.replay_cons hreplay
      rcases not_queued_of_apply hattributes hstatus hnext with ⟨now, hnow⟩ |
        ⟨later, hlater, hstatusLater⟩
      · obtain ⟨lapsed, expires, hlapsed, hexpires, hle⟩ := expired_of_lapses hnow hnext
        exact ⟨[], entry, rest ++ [claim], now, table, lapsed, expires, rfl, hnow, rfl, hlapsed,
          hexpires, hle⟩
      · obtain ⟨before, lapse, tail, now, version, lapsed, expires, hsplit, hnow, hbefore, hfacts⟩ :=
          ih hlater hstatusLater hrest
        refine ⟨entry :: before, lapse, tail, now, version, lapsed, expires, ?_, hnow, ?_, hfacts⟩
        · rw [List.cons_append, hsplit, List.cons_append]
        · rw [VersionedStore.replay, hnext]
          exact hbefore

end Writes

/-! ## Calls and their writes -/

namespace DynamoDbJobRepository

variable {answers : List ((r : DynamoRequest Options Solution) × r.Response)} {id : JobId}
  {token : String}

omit [TimeStore] in
private theorem written_of_accepted {outcome : WriteOutcome}
    (hreplays : (accepted outcome : DynamoProgram Options Solution Bool).Replays answers
      (.done true)) : outcome = .written := by
  cases outcome with
  | written => rfl
  | refused => cases hreplays.of_done.2
  | failed cause => exact hreplays.of_fault.elim

omit [TimeStore] in
/-- A completion that returned `true` had its update applied. -/
theorem complete_written {solution : Option Solution} {error : Option String}
    (hreplays : (complete id token solution error : DynamoProgram Options Solution Bool).Replays
      answers (.done true)) :
    ∃ now, ⟨.write (.update id (.complete token now solution error)), .written⟩ ∈ answers := by
  unfold complete at hreplays
  split_ifs at hreplays
  · exact hreplays.of_fault.elim
  · obtain ⟨now, rest, rfl, hwrite⟩ := Program.Replays.of_request hreplays
    obtain ⟨outcome, last, rfl, haccepted⟩ := Program.Replays.of_request hwrite
    rw [written_of_accepted haccepted]
    exact ⟨now, by simp⟩

omit [TimeStore] in
/-- A heartbeat that returned `true` had its update applied. -/
theorem heartbeat_written {leaseSeconds : UInt64}
    (hreplays : (heartbeat id token leaseSeconds : DynamoProgram Options Solution Bool).Replays
      answers (.done true)) :
    ∃ now expires, ⟨.write (.update id (.renew token now expires)), .written⟩ ∈ answers := by
  obtain ⟨now, rest, rfl, hrest⟩ := Program.Replays.of_request hreplays
  cases hexpires : leaseExpiresAt now leaseSeconds with
  | none =>
      simp only [Program.bind, hexpires] at hrest
      exact hrest.of_fault.elim
  | some expires =>
      simp only [Program.bind, hexpires] at hrest
      obtain ⟨outcome, last, rfl, haccepted⟩ := Program.Replays.of_request hrest
      rw [written_of_accepted haccepted]
      exact ⟨now, expires, by simp⟩

omit [TimeStore] in
/-- A claim that returned a lease had its transaction applied. -/
theorem claim_written {requestedJobId : Option JobId} {leaseSeconds : UInt64}
    {lease : JobLease Options}
    (hreplays : (claim requestedJobId leaseSeconds :
      DynamoProgram Options Solution (Option (JobLease Options))).Replays answers
        (.done (some lease))) :
    ∃ owner eligible now, ⟨.write (.claim lease.jobId owner
      ⟨eligible, now, lease.leaseToken, lease.leaseExpiresAt⟩), .written⟩ ∈ answers := by
  unfold claim at hreplays
  obtain ⟨now, clock, rest, rfl, _, hrest⟩ := Program.Replays.of_bind hreplays
  obtain ⟨candidate, first, second, rfl, _, hcandidate⟩ := Program.Replays.of_bind hrest
  rcases candidate with _ | ⟨job, eligible⟩
  · cases hcandidate.of_done.2
  · obtain ⟨leaseToken, afterToken, rfl, htoken⟩ := Program.Replays.of_request hcandidate
    cases hexpires : leaseExpiresAt now leaseSeconds with
    | none =>
        simp only [Program.bind, hexpires] at htoken
        exact htoken.of_fault.elim
    | some expires =>
        simp only [Program.bind, hexpires] at htoken
        obtain ⟨outcome, last, rfl, houtcome⟩ := Program.Replays.of_request htoken
        cases outcome with
        | written =>
            cases houtcome.of_done.2
            exact ⟨job.owner, eligible, now, by simp⟩
        | refused => cases houtcome.of_done.2
        | failed cause => exact houtcome.of_fault.elim

end DynamoDbJobRepository

/-! ## Exclusivity -/

/-- Repository calls over the table, by any number of processes with clocks and
tokens of their own. -/
def dynamo (recoveryDelay : ℤ) :
    System (RepositoryCall Options Solution) (DynamoRequest Options Solution)
      DynamoRequest.Response Fault RepositoryCall.Result (DynamoStore Options Solution) where
  body := RepositoryCall.dynamoProgram recoveryDelay
  admits := fun _ _ _ => True
  answers := DynamoStore.Answers
  halts := fun _ before after => after = before
  environment := fun before after => after = before

abbrev DynamoConfiguration (Options Solution : Type) :=
  Configuration (RepositoryCall Options Solution) (DynamoRequest Options Solution)
    DynamoRequest.Response Fault RepositoryCall.Result (DynamoStore Options Solution)

abbrev DynamoLabel (Options Solution : Type) :=
  Label (RepositoryCall Options Solution) (DynamoRequest Options Solution)
    DynamoRequest.Response Fault

section Exclusivity

variable {recoveryDelay : ℤ} {config : DynamoConfiguration Options Solution}
  {labels : List (DynamoLabel Options Solution)} {id : JobId}

/-- A request only adds to the log. -/
theorem DynamoStore.Answers.extends {pid : ℕ} {store after : DynamoStore Options Solution}
    {r : DynamoRequest Options Solution} {reply : r.Response}
    (hanswers : store.Answers pid r reply after) : ∃ more, after.log = store.log ++ more := by
  have hkept : after = store → ∃ more, after.log = store.log ++ more := by
    rintro rfl
    exact ⟨[], (List.append_nil _).symm⟩
  have haccepted : ∀ write, store.Accepts pid write after →
      ∃ more, after.log = store.log ++ more := by
    rintro write ⟨next, happly, rfl⟩
    exact ⟨_, rfl⟩
  cases r with
  | write write =>
      cases reply with
      | written => exact haccepted write hanswers
      | refused => exact hkept hanswers.1
      | failed cause => exact hanswers.elim hkept (haccepted write)
  | _ => exact hkept hanswers.1

/-- The writes a process was told about are in the log under its name. -/
theorem logged_of_written
    (hrun : Run (dynamo recoveryDelay).Step (.idle .initial) labels config) {pid : ℕ}
    {write : DynamoWrite Options Solution} (hwritten : .ask pid (.write write) .written ∈ labels) :
    (pid, write) ∈ config.store.log := by
  refine Run.invariant
    (I := fun past (state : DynamoConfiguration Options Solution) => ∀ pid write,
      .ask pid (.write write) .written ∈ past → (pid, write) ∈ state.store.log)
    (by simp) ?_ hrun pid write hwritten
  intro past before label after hpast hstep asker asked hmem
  rcases List.mem_append.mp hmem with hold | hnew
  · have hlog := hpast asker asked hold
    cases hstep with
    | start pid call hfree hadmits => exact hlog
    | ask pid call r next reply store hprocess hanswers =>
        obtain ⟨more, hmore⟩ := hanswers.extends
        rw [show store.log = _ from hmore]
        exact List.mem_append_left _ hlog
    | halt pid call r next cause store hprocess hhalts =>
        cases hhalts
        exact hlog
    | environment store hmoves =>
        cases hmoves
        exact hlog
  · rw [List.mem_singleton] at hnew
    subst hnew
    cases hstep with
    | ask _ call _ next _ store hprocess hanswers =>
        obtain ⟨version, happly, rfl⟩ := hanswers
        exact List.mem_append_right _ (List.mem_singleton_self _)

/-- The log of a configuration continues in every later one. -/
theorem extends_of_run {later : DynamoConfiguration Options Solution}
    (hrun : Run (dynamo recoveryDelay).Step config labels later) :
    ∃ more, later.store.log = config.store.log ++ more := by
  refine Run.relates
    (R := fun before after : DynamoConfiguration Options Solution =>
      ∃ more, after.store.log = before.store.log ++ more)
    (fun _ => ⟨[], (List.append_nil _).symm⟩) ?_ ?_ hrun
  · rintro first second third ⟨more, hmore⟩ ⟨further, hfurther⟩
    exact ⟨more ++ further, by rw [hfurther, hmore, List.append_assoc]⟩
  · intro before label after hstep
    cases hstep with
    | start pid call hfree hadmits => exact ⟨[], (List.append_nil _).symm⟩
    | ask pid call r next reply store hprocess hanswers => exact hanswers.extends
    | halt pid call r next cause store hprocess hhalts =>
        cases hhalts
        exact ⟨[], (List.append_nil _).symm⟩
    | environment store hmoves =>
        cases hmoves
        exact ⟨[], (List.append_nil _).symm⟩

/-- A process that returned was told about the writes its result rests on. -/
theorem answered_of_returned
    (hrun : Run (dynamo recoveryDelay).Step (.idle .initial) labels config) {pid : ℕ}
    {call : RepositoryCall Options Solution} {result : call.Result}
    (hreturned : config.process pid = some ⟨call, .done result⟩) :
    (call.dynamoProgram recoveryDelay).Replays (answersOf pid labels) (.done result) := by
  rcases System.replays_of_run hrun hreturned with ⟨cause, hfault⟩ | hreplays
  · cases hfault
  · exact hreplays

/-- The process called `complete` or `heartbeat` for the job with this token,
and the call returned `true`. -/
def HolderSucceeds (config : DynamoConfiguration Options Solution) (pid : ℕ) (id : JobId)
    (token : String) : Prop :=
  (∃ solution error, config.process pid = some ⟨.complete id token solution error, .done true⟩) ∨
    ∃ leaseSeconds, config.process pid = some ⟨.heartbeat id token leaseSeconds, .done true⟩

/-- What exclusivity says about one job in a configuration that was reached. -/
structure LeaseExclusive (recoveryDelay : ℤ) (config : DynamoConfiguration Options Solution)
    (id : JobId) : Prop where
  /-- Between two claims, some clock had reached the expiry stored at that moment, and its reader
  took the lease back: the second claimer or a reclaimer. -/
  lapsed : ∀ earlier first between second rest,
    config.store.log = earlier ++ first :: (between ++ second :: rest) →
      first.2.Claims id → second.2.Claims id →
        ∃ before entry after now version attributes expires,
          between ++ [second] = before ++ entry :: after ∧ entry.2.Lapses id now ∧
          VersionedStore.replay DynamoTable.apply .empty (earlier ++ first :: before) =
            some version ∧
          (version.item id).attributes = some attributes ∧
          attributes.leaseExpiresAt = some expires ∧ expires ≤ now
  /-- A claim that returned a lease is in the log. -/
  claimed : ∀ pid requestedJobId leaseSeconds lease,
    config.process pid = some ⟨.claim requestedJobId leaseSeconds, .done (some lease)⟩ →
      ∃ earlier owner eligible now later,
        config.store.log = earlier ++ (pid, .claim lease.jobId owner
          ⟨eligible, now, lease.leaseToken, lease.leaseExpiresAt⟩) :: later
  /-- At most one completion returns `true`. -/
  completed : ∀ first second token token' solution solution' error error',
    config.process first = some ⟨.complete id token solution error, .done true⟩ →
      config.process second = some ⟨.complete id token' solution' error', .done true⟩ →
        first = second
  /-- A completion or heartbeat succeeds only with the token of the most recent claim, with no
  lapse and no completion since. -/
  held : ∀ pid token, HolderSucceeds config pid id token →
    ∃ earlier write later, config.store.log = earlier ++ (pid, write) :: later ∧
      HeldBy (leaseLog id earlier) token
  /-- The outcome of a finished job never changes again. -/
  final : ∀ more later attributes, Run (dynamo recoveryDelay).Step config more later →
    (config.store.current.item id).attributes = some attributes →
      attributes.status.terminal = true →
        ∃ kept, (later.store.current.item id).attributes = some kept ∧
          kept.completion = attributes.completion

/-- The readings and expiries a write compares or stores. -/
def DynamoWrite.times : DynamoWrite Options Solution → List Time
  | .enqueue _ => []
  | .claim _ _ taken => [taken.now, taken.leaseExpiresAt]
  | .update _ (.requeue now) => [now]
  | .update _ (.renew _ now expires) => [now, expires]
  | .update _ (.complete _ now _ _) => [now]
  | .update _ (.donate _) => []
  | .update _ (.markDelivered _) => []

/-- Every reading and expiry of a log lies in the years 0 to 9999. -/
def FourDigitYears {A : Type} (log : List (A × DynamoWrite Options Solution)) : Prop :=
  ∀ entry ∈ log, ∀ time ∈ entry.2.times, Time.FourDigitYear time

/-- Every stored expiry lies in the years 0 to 9999. -/
def DynamoTable.ExpiresInYears (table : DynamoTable Options Solution) : Prop :=
  ∀ id attributes expires, (table.item id).attributes = some attributes →
    attributes.leaseExpiresAt = some expires → expires.FourDigitYear

theorem DynamoTable.ExpiresInYears.apply {table after : DynamoTable Options Solution}
    {write : DynamoWrite Options Solution} (hyears : table.ExpiresInYears)
    (htimes : ∀ time ∈ write.times, Time.FourDigitYear time)
    (happly : table.apply write = some after) : after.ExpiresInYears := by
  intro id attributes expires hattributes hexpires
  rcases DynamoTable.item_of_apply happly id with ⟨_, hitem⟩ | ⟨job, _, _, _, hitem⟩ |
    ⟨_, update, rfl, _, hitem⟩ | ⟨update, rfl, _, hitem⟩
  · exact hyears id attributes expires (hitem ▸ hattributes) hexpires
  · rw [hitem] at hattributes
    cases hattributes
    cases hexpires
  · rw [hitem] at hattributes
    obtain ⟨old, _, rfl⟩ := Option.map_eq_some_iff.mp hattributes
    cases hexpires
    exact htimes _ (by simp [DynamoWrite.times])
  · rw [hitem] at hattributes
    obtain ⟨old, hold, rfl⟩ := Option.map_eq_some_iff.mp hattributes
    cases update with
    | requeue now => cases hexpires
    | renew token now later =>
        cases hexpires
        exact htimes _ (by simp [DynamoWrite.times])
    | complete token now solution error => cases hexpires
    | donate donation => exact hyears id old expires hold hexpires
    | markDelivered now => exact hyears id old expires hold hexpires

theorem expiresInYears_of_replay {A : Type} {log : List (A × DynamoWrite Options Solution)}
    {table after : DynamoTable Options Solution} (hyears : table.ExpiresInYears)
    (hlog : FourDigitYears log)
    (hreplay : VersionedStore.replay DynamoTable.apply table log = some after) :
    after.ExpiresInYears := by
  induction log generalizing table with
  | nil =>
      cases hreplay
      exact hyears
  | cons entry rest ih =>
      obtain ⟨next, hnext, hrest⟩ := VersionedStore.replay_cons hreplay
      exact ih (hyears.apply (hlog entry List.mem_cons_self) hnext)
        (fun other hmem => hlog other (List.mem_cons_of_mem _ hmem)) hrest

omit [TimeStore] in
/-- The reading of a lapse is one of its times. -/
theorem DynamoWrite.Lapses.mem_times {write : DynamoWrite Options Solution} {now : Time}
    (hlapses : write.Lapses id now) : now ∈ write.times := by
  rcases hlapses with rfl | ⟨owner, update, rfl, _, rfl⟩ <;> simp [DynamoWrite.times]

private theorem not_queued_of_claims {write : DynamoWrite Options Solution}
    {table after : DynamoTable Options Solution} (hclaims : write.Claims id)
    (happly : table.apply write = some after) :
    ∃ attributes, (after.item id).attributes = some attributes ∧ attributes.status ≠ .queued := by
  obtain ⟨owner, update, rfl⟩ := hclaims
  have hcondition : update.condition (table.item id) = true := by
    simp only [DynamoTable.apply] at happly
    split_ifs at happly with hcondition
    exact hcondition
  obtain ⟨attributes, hattributes, _⟩ := attributes_of_any hcondition
  rcases DynamoTable.item_of_apply happly id with ⟨htarget, _⟩ |
    ⟨_, hwrite, _⟩ | ⟨_, other, hwrite, _, hitem⟩ | ⟨_, hwrite, _⟩
  · exact (htarget rfl).elim
  · cases hwrite
  · cases hwrite
    refine ⟨update.assign attributes, ?_, ?_⟩
    · rw [hitem, ClaimUpdate.applyTo, hattributes]
      rfl
    · intro hqueued
      cases hqueued
  · cases hwrite

omit [TimeStore] in
private theorem completion_of_phase {table : DynamoTable Options Solution}
    {outcome : Completion Solution} (hphase : table.phase id = .finished outcome) :
    ∃ attributes, (table.item id).attributes = some attributes ∧
      attributes.completion = outcome := by
  unfold DynamoTable.phase at hphase
  cases hattributes : (table.item id).attributes with
  | none =>
      rw [hattributes] at hphase
      cases hphase
  | some attributes =>
      rw [hattributes] at hphase
      refine ⟨attributes, rfl, ?_⟩
      simp only [Option.map_some, Option.getD_some, JobAttributes.phase] at hphase
      split at hphase
      · cases hphase
      · split at hphase <;> cases hphase
      · exact Phase.finished.inj hphase
      · exact Phase.finished.inj hphase

omit [TimeStore] in
/-- Two completions in a log that allows only one are by the same author. -/
private theorem authors_eq_of_finishes {log : List (ℕ × DynamoWrite Options Solution)}
    {first second : ℕ} {write write' : DynamoWrite Options Solution}
    (hone : (leaseLog id log).countP Event.isFinish ≤ 1) (hfirst : (first, write) ∈ log)
    (hsecond : (second, write') ∈ log)
    (hfinish : ((write.leaseEvents id : List (LeaseEvent Solution)).countP Event.isFinish) = 1)
    (hfinish' : ((write'.leaseEvents id : List (LeaseEvent Solution)).countP Event.isFinish) = 1) :
    first = second := by
  obtain ⟨earlier, later, rfl⟩ := List.append_of_mem hfirst
  have hsplit : leaseLog id (earlier ++ (first, write) :: later) =
      leaseLog id earlier ++ (write.leaseEvents id ++ leaseLog id later) := by
    rw [leaseLog_append, leaseLog, leaseLog, List.flatMap_cons]
    rfl
  rw [hsplit, List.countP_append, List.countP_append, hfinish] at hone
  have hother : ∀ part : List (ℕ × DynamoWrite Options Solution), (second, write') ∈ part →
      1 ≤ (leaseLog id part).countP Event.isFinish := by
    intro part hmem
    obtain ⟨before, after, rfl⟩ := List.append_of_mem hmem
    rw [leaseLog_append, List.countP_append, leaseLog, leaseLog, List.flatMap_cons,
      List.countP_append, hfinish']
    omega
  rcases List.mem_append.mp hsecond with hbefore | hrest
  · have := hother earlier hbefore
    omega
  · rcases List.mem_cons.mp hrest with hsame | hafter
    · exact (congrArg Prod.fst hsame).symm
    · have := hother later hafter
      omega

/-- Lease exclusivity of the DynamoDB repository, for every interleaving of the
requests of any number of calls whose readings and expiries lie in the years 0
to 9999. -/
theorem dynamo_lease_exclusivity (hbytes : TimeStore.Bytewise)
    (hrun : Run (dynamo recoveryDelay).Step (.idle .initial) labels config)
    (hyears : FourDigitYears config.store.log) (id : JobId) :
    LeaseExclusive recoveryDelay config id where
  lapsed := by
    intro earlier first between second rest hlog hfirst hsecond
    obtain ⟨before, claimed, hbefore, hclaimed, hrest⟩ := VersionedStore.accepted hlog
    obtain ⟨attributes, hattributes, hstatus⟩ := not_queued_of_claims hfirst hclaimed
    rw [List.append_cons] at hrest
    obtain ⟨middle, hmiddle, _⟩ := VersionedStore.replay_split hrest
    obtain ⟨prior, entry, after, now, version, lapsed, expires, hsplit, hlapses, hversion,
      hlapsed, hexpires, hreached⟩ := lapse_before_claim hattributes hstatus hsecond hmiddle
    have hreplay : VersionedStore.replay DynamoTable.apply .empty (earlier ++ first :: prior) =
        some version := by
      rw [VersionedStore.replay_append, hbefore, Option.bind_some, VersionedStore.replay, hclaimed]
      exact hversion
    -- The log up to the second claim, as the lapse divides it.
    have hparts : config.store.log = (earlier ++ first :: prior) ++ (entry :: (after ++ rest)) := by
      rw [hlog, List.append_cons between second rest, hsplit]
      simp
    have hexpiry : expires.FourDigitYear :=
      expiresInYears_of_replay (fun _ _ _ hnone => by cases hnone)
        (fun other hmem => hyears other (hparts ▸ List.mem_append_left _ hmem)) hreplay id lapsed
        expires hlapsed hexpires
    have hnow : now.FourDigitYear :=
      hyears entry (hparts ▸ List.mem_append_right _ List.mem_cons_self) now hlapses.mem_times
    exact ⟨prior, entry, after, now, version, lapsed, expires, hsplit, hlapses, hreplay, hlapsed,
      hexpires, (hbytes.isLE_iff hexpiry hnow).mp hreached⟩
  claimed := by
    intro pid requestedJobId leaseSeconds lease hreturned
    obtain ⟨owner, eligible, now, hmem⟩ :=
      DynamoDbJobRepository.claim_written (answered_of_returned hrun hreturned)
    obtain ⟨earlier, later, hlog⟩ :=
      List.append_of_mem (logged_of_written hrun (mem_answersOf.mp hmem))
    exact ⟨earlier, owner, eligible, now, later, hlog⟩
  completed := by
    intro first second token token' solution solution' error error' hfirst hsecond
    obtain ⟨now, hmem⟩ := DynamoDbJobRepository.complete_written (answered_of_returned hrun hfirst)
    obtain ⟨now', hmem'⟩ :=
      DynamoDbJobRepository.complete_written (answered_of_returned hrun hsecond)
    have hfinishes := countP_isFinish_le_one
      (allows_log id wellLeased_empty config.store.derived)
    exact authors_eq_of_finishes hfinishes (logged_of_written hrun (mem_answersOf.mp hmem))
      (logged_of_written hrun (mem_answersOf.mp hmem')) (by simp [DynamoWrite.leaseEvents,
        JobUpdate.leaseEvents, Event.isFinish]) (by simp [DynamoWrite.leaseEvents,
        JobUpdate.leaseEvents, Event.isFinish])
  held := by
    intro pid token hsucceeds
    have hallows : Allows TimeStore.Lapsed .idle (leaseLog id config.store.log)
        (config.store.current.phase id) :=
      allows_log id wellLeased_empty config.store.derived
    have hwrite : ∃ write event, (pid, write) ∈ config.store.log ∧
        (write.leaseEvents id : List (LeaseEvent Solution)) = [event] ∧
          event.holderToken = some token := by
      rcases hsucceeds with ⟨solution, error, hreturned⟩ | ⟨leaseSeconds, hreturned⟩
      · obtain ⟨now, hmem⟩ :=
          DynamoDbJobRepository.complete_written (answered_of_returned hrun hreturned)
        exact ⟨_, _, logged_of_written hrun (mem_answersOf.mp hmem), if_pos rfl, rfl⟩
      · obtain ⟨now, expires, hmem⟩ :=
          DynamoDbJobRepository.heartbeat_written (answered_of_returned hrun hreturned)
        exact ⟨_, _, logged_of_written hrun (mem_answersOf.mp hmem), if_pos rfl, rfl⟩
    obtain ⟨write, event, hmem, hevents, htoken⟩ := hwrite
    obtain ⟨earlier, later, hlog⟩ := List.append_of_mem hmem
    refine ⟨earlier, write, later, hlog, ?_⟩
    rw [hlog, leaseLog_append, leaseLog, leaseLog, List.flatMap_cons, hevents] at hallows
    exact heldBy_of_holderToken htoken hallows
  final := by
    intro more later attributes hmore hattributes hterminal
    obtain ⟨log, hlog⟩ := extends_of_run hmore
    have hwell : config.store.current.WellLeased :=
      VersionedStore.replay_preserves DynamoTable.WellLeased
        (fun _ _ _ hwell happly => hwell.apply happly) wellLeased_empty config.store.derived
    have hallows := allows_log id hwell (VersionedStore.replay_of_extends hlog)
    have hphase : config.store.current.phase id = .finished attributes.completion := by
      rw [phase_of_attributes hattributes]
      cases hstatus : attributes.status <;> simp [hstatus, JobStatus.terminal] at hterminal <;>
        simp [JobAttributes.phase, hstatus]
    rw [hphase] at hallows
    obtain ⟨_, hfinished⟩ := allows_finished hallows
    exact completion_of_phase hfinished

end Exclusivity

end Stores

/-! ### A run on fixed inputs -/

attribute [local instance] TimeStore.bytewise

/-- Job 1 is claimed by process 1, claimed again by process 4 after the lease
has lapsed, completed by process 5 with the second token, and process 6 is too
late with the first one. -/
def reclaimedSchedule : List (Move (RepositoryCall Unit Unit)) :=
  List.flatten
    [ [.start 0 (.enqueue (sampleJob 1 "a" "a/1" 1 0)), .ask 0],
      .start 1 (.claim (some 1) 300) :: List.replicate 4 (.ask 1),
      .start 4 (.claim (some 1) 300) :: List.replicate 4 (.ask 4),
      .start 5 (.complete 1 "token-4" (some ()) none) :: List.replicate 2 (.ask 5),
      .start 6 (.complete 1 "token-1" (some ()) none) :: List.replicate 2 (.ask 6) ]

/-- What `FourDigitYears` says of a log. -/
def fourDigitYears {A : Type} (log : List (A × DynamoWrite Options Solution)) : Bool :=
  log.all fun entry => entry.2.times.all fun time => decide (Time.FourDigitYear time)

theorem fourDigitYears_iff {A : Type} {log : List (A × DynamoWrite Options Solution)} :
    fourDigitYears log = true ↔ FourDigitYears log := by
  simp [fourDigitYears, FourDigitYears, List.all_eq_true]

/-- The process has returned this answer to a completion. -/
def completionAnswer (config : DynamoConfiguration Options Solution) (pid : ℕ) : Option Bool :=
  match config.process pid with
  | some ⟨.complete _ _ _ _, .done answer⟩ => some answer
  | _ => none

theorem dynamo_lease_exclusivity_reclaimed :
    ∃ (labels : List (DynamoLabel Unit Unit)) (config : DynamoConfiguration Unit Unit),
      Run (dynamo 0).Step (.idle .initial) labels config ∧
        completionAnswer config 5 = some true ∧ completionAnswer config 6 = some false ∧
        LeaseExclusive 0 config 1 := by
  have hplays : ((Configuration.idle .initial).moves (RepositoryCall.dynamoProgram 0)
      (fun _ _ _ => true) (DynamoStore.serve fun _ => false) reclaimedSchedule).any (fun config =>
        decide (completionAnswer config 5 = some true ∧ completionAnswer config 6 = some false ∧
          fourDigitYears config.store.log = true)) = true := by
    decide
  simp only [Option.any_eq_true, decide_eq_true_eq] at hplays
  obtain ⟨config, hmoves, hfirst, hsecond, hyears⟩ := hplays
  have hadmission : ∀ (pid : ℕ) (store : DynamoStore Unit Unit) (call : RepositoryCall Unit Unit),
      true = true → (dynamo 0).admits pid store call := fun _ _ _ _ => trivial
  obtain ⟨labels, hrun⟩ := System.run_of_moves hadmission DynamoStore.answers_of_serve hmoves
  exact ⟨labels, config, hrun, hfirst, hsecond,
    dynamo_lease_exclusivity TimeStore.bytewise_spec hrun (fourDigitYears_iff.mp hyears) 1⟩

/-- As `DynamoStore.serve`, with an index that is up to date. -/
def serveListed (pid : ℕ) (store : DynamoStore Options Solution) :
    (r : DynamoRequest Options Solution) → Option (r.Response × DynamoStore Options Solution)
  | .queryStatus status none false none =>
      some (.ok ((store.current.jobs.rows.filter fun item =>
        item.attributes.any fun attributes => attributes.status = status).map JobItem.pk), store)
  | r => DynamoStore.serve (fun _ => false) pid store r

theorem answers_of_serveListed (pid : ℕ) (store : DynamoStore Options Solution)
    (r : DynamoRequest Options Solution) (reply : r.Response)
    (after : DynamoStore Options Solution) (hserved : serveListed pid store r = some (reply, after)) :
    store.Answers pid r reply after := by
  unfold serveListed at hserved
  split at hserved
  next status =>
    cases hserved
    refine ⟨rfl, ?_⟩
    rintro ids ⟨⟩
    refine ⟨?_, nofun⟩
    intro id hmem
    obtain ⟨item, hitem, rfl⟩ := List.mem_map.mp hmem
    obtain ⟨hrow, hany⟩ := List.mem_filter.mp hitem
    obtain ⟨attributes, hattributes, hstatus⟩ := attributes_of_any hany
    have hfound : store.current.item item.pk = item :=
      DynamoTable.item_of_find? (KeyedTable.find?_of_mem hrow)
    refine ⟨store.current, VersionedStore.saw_current store, attributes, ?_,
      of_decide_eq_true hstatus, nofun, nofun⟩
    rw [hfound]
    exact hattributes
  next => exact DynamoStore.answers_of_serve pid store _ reply after hserved

/-- Job 1 is leased for 300000000000 seconds at 100 seconds, and at 400 seconds a
worker asks for any job. -/
def longLeaseSchedule : List (Move (RepositoryCall Unit Unit)) :=
  List.flatten
    [ [.start 0 (.enqueue (sampleJob 1 "a" "a/1" 1 0)), .ask 0],
      .start 1 (.claim (some 1) 300000000000) :: List.replicate 4 (.ask 1),
      .start 4 (.claim none 300000000000) :: List.replicate 8 (.ask 4) ]

def DynamoWrite.claims (id : JobId) : DynamoWrite Options Solution → Bool
  | .claim target _ _ => target = id
  | _ => false

/-- The reading with which a write may take a lease of the job back. -/
def DynamoWrite.reading (id : JobId) : DynamoWrite Options Solution → Option Time
  | .claim target _ taken => if target = id then some taken.now else none
  | .update target (.requeue now) => if target = id then some now else none
  | _ => none

theorem DynamoWrite.claims_iff {id : JobId} {write : DynamoWrite Options Solution} :
    write.claims id = true → write.Claims id := by
  cases write with
  | claim target owner taken =>
      intro htarget
      rw [of_decide_eq_true htarget]
      exact ⟨owner, taken, rfl⟩
  | _ => nofun

theorem DynamoWrite.Lapses.reading_eq {id : JobId} {now : Time}
    {write : DynamoWrite Options Solution} (hlapses : write.Lapses id now) :
    write.reading id = some now := by
  rcases hlapses with rfl | ⟨owner, update, rfl, _, rfl⟩ <;> simp [DynamoWrite.reading]

/-- The expiry the table stores for the job after a log. -/
def expiryAfter (log : List (ℕ × DynamoWrite Unit Unit)) (id : JobId) : Option Time :=
  (VersionedStore.replay DynamoTable.apply .empty log).bind fun version =>
    (version.item id).attributes.bind JobAttributes.leaseExpiresAt

theorem expiryAfter_eq {log : List (ℕ × DynamoWrite Unit Unit)} {id : JobId}
    {version : DynamoTable Unit Unit} {attributes : JobAttributes Unit Unit}
    (hreplay : VersionedStore.replay DynamoTable.apply .empty log = some version)
    (hattributes : (version.item id).attributes = some attributes) :
    expiryAfter log id = attributes.leaseExpiresAt := by
  rw [expiryAfter, hreplay, Option.bind_some, hattributes, Option.bind_some]

/-- A lease that runs into the year 11476 has a text before those of 1970: the job
is claimed again after five minutes. -/
theorem dynamo_lease_exclusivity_counterexample :
    ¬ ∀ (labels : List (DynamoLabel Unit Unit)) (config : DynamoConfiguration Unit Unit),
      Run (dynamo 0).Step (.idle .initial) labels config → ∀ id, LeaseExclusive 0 config id := by
  intro hclaim
  have hplays : ((Configuration.idle .initial).moves (RepositoryCall.dynamoProgram 0)
      (fun _ _ _ => true) serveListed longLeaseSchedule).any (fun config =>
        decide (config.store.log.map (fun entry => (entry.2.claims 1, entry.2.reading 1)) =
            [(false, none), (true, some (100 * 10 ^ 9)), (false, some (400 * 10 ^ 9)),
              (true, some (400 * 10 ^ 9))] ∧
          expiryAfter (config.store.log.take 2) 1 = some (300000000100 * 10 ^ 9) ∧
          expiryAfter (config.store.log.take 3) 1 = none)) = true := by
    decide +kernel
  simp only [Option.any_eq_true, decide_eq_true_eq] at hplays
  obtain ⟨config, hmoves, hwrites, hleased, hqueued⟩ := hplays
  have hadmission : ∀ (pid : ℕ) (store : DynamoStore Unit Unit) (call : RepositoryCall Unit Unit),
      true = true → (dynamo 0).admits pid store call := fun _ _ _ _ => trivial
  obtain ⟨labels, hrun⟩ := System.run_of_moves hadmission answers_of_serveListed hmoves
  obtain ⟨enqueued, _, hlog, _, hwrites⟩ := List.map_eq_cons_iff.mp hwrites
  obtain ⟨first, _, rfl, hfirst, hwrites⟩ := List.map_eq_cons_iff.mp hwrites
  obtain ⟨requeued, _, rfl, hrequeued, hwrites⟩ := List.map_eq_cons_iff.mp hwrites
  obtain ⟨second, _, rfl, hsecond, hwrites⟩ := List.map_eq_cons_iff.mp hwrites
  rw [List.map_eq_nil_iff.mp hwrites] at hlog
  rw [hlog] at hleased hqueued
  obtain ⟨before, entry, after, now, version, attributes, expires, hsplit, hlapses, hversion,
    hattributes, hexpires, hle⟩ := (hclaim labels config hrun 1).lapsed [enqueued] first [requeued]
      second [] hlog (DynamoWrite.claims_iff (congrArg Prod.fst hfirst))
      (DynamoWrite.claims_iff (congrArg Prod.fst hsecond))
  have hexpiry := (expiryAfter_eq hversion hattributes).trans hexpires
  cases before with
  | nil =>
      rw [List.nil_append, List.singleton_append, List.cons.injEq] at hsplit
      rw [← hsplit.1] at hlapses
      have hnow := (congrArg Prod.snd hrequeued).symm.trans hlapses.reading_eq
      have hlease := hleased.symm.trans hexpiry
      rw [← Option.some.inj hnow, ← Option.some.inj hlease] at hle
      exact absurd hle (by decide)
  | cons other rest =>
      -- After the reclaiming there is no lease that could lapse.
      cases rest with
      | nil =>
          rw [List.singleton_append, List.singleton_append, List.cons.injEq] at hsplit
          rw [← hsplit.1] at hexpiry
          cases hqueued.symm.trans hexpiry
      | cons more rest => simp at hsplit

end SeizaServer
