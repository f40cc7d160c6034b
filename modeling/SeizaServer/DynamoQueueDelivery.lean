import SeizaServer.QueueContract
import SeizaServer.DynamoRepository

/-!
# Messages and notifications over the DynamoDB table

The same parties as over SQL, with every request to the table a step of its
own.  A job whose existence no eventually consistent read denies keeps its
notification open or its message undeleted; the last section shows what one
such read does.
-/

namespace SeizaServer

open Interaction Transition

variable {Options Solution : Type}

section Stores

variable [TimeStore]

/-! ## Jobs of a table -/

namespace DynamoTable

/-- The table has an item of this job. -/
def Known (table : DynamoTable Options Solution) (id : JobId) : Prop :=
  ∃ attributes, (table.item id).attributes = some attributes

def Finished (table : DynamoTable Options Solution) (id : JobId) : Prop :=
  ∃ attributes, (table.item id).attributes = some attributes ∧ attributes.status.terminal = true

/-- Every item carries its own key as its `id`. -/
def Labelled (table : DynamoTable Options Solution) : Prop :=
  ∀ id attributes, (table.item id).attributes = some attributes → attributes.id = id

/-- Jobs stay, and finished jobs stay finished. -/
structure Retains (table later : DynamoTable Options Solution) : Prop where
  known : ∀ id, table.Known id → later.Known id
  finished : ∀ id, table.Finished id → later.Finished id

variable {table after : DynamoTable Options Solution} {write : DynamoWrite Options Solution}
  {id : JobId}

omit [TimeStore] in
theorem Retains.refl (table : DynamoTable Options Solution) : table.Retains table :=
  ⟨fun _ h => h, fun _ h => h⟩

omit [TimeStore] in
theorem Retains.trans {first second third : DynamoTable Options Solution}
    (hfirst : first.Retains second) (hsecond : second.Retains third) : first.Retains third :=
  ⟨fun id h => hsecond.known id (hfirst.known id h),
    fun id h => hsecond.finished id (hfirst.finished id h)⟩

theorem terminal_assign {update : JobUpdate Solution} {item : JobItem Options Solution}
    {attributes : JobAttributes Options Solution} (hattributes : item.attributes = some attributes)
    (hcondition : update.condition item = true) (hterminal : attributes.status.terminal = true) :
    (update.assign attributes).status.terminal = true := by
  cases update with
  | requeue now =>
      simp only [JobUpdate.condition, hattributes, Option.any_some, JobAttributes.expiredBy,
        Bool.and_eq_true, decide_eq_true_eq] at hcondition
      rw [hcondition.1] at hterminal
      cases hterminal
  | complete token now solution error => exact terminal_completionStatus solution
  | _ => exact hterminal

theorem not_terminal_of_claim {update : ClaimUpdate} {item : JobItem Options Solution}
    {attributes : JobAttributes Options Solution} (hattributes : item.attributes = some attributes)
    (hcondition : update.condition item = true) : attributes.status.terminal = false := by
  simp only [ClaimUpdate.condition, hattributes, Option.any_some] at hcondition
  cases heligibility : update.eligibility with
  | queued =>
      rw [heligibility] at hcondition
      rw [of_decide_eq_true hcondition]
      rfl
  | expiredLease =>
      rw [heligibility] at hcondition
      simp only [JobAttributes.expiredBy, Bool.and_eq_true, decide_eq_true_eq] at hcondition
      rw [hcondition.1]
      rfl

theorem retains_of_apply (happly : table.apply write = some after) : table.Retains after where
  known := by
    rintro id ⟨attributes, hattributes⟩
    rcases item_of_apply happly id with ⟨_, hitem⟩ | ⟨_, _, _, hnone, _⟩ |
      ⟨_, update, _, _, hitem⟩ | ⟨update, _, _, hitem⟩
    · exact ⟨attributes, hitem ▸ hattributes⟩
    · rw [hnone] at hattributes
      cases hattributes
    · exact ⟨update.assign attributes, by rw [hitem, ClaimUpdate.applyTo, hattributes]; rfl⟩
    · exact ⟨update.assign attributes, by rw [hitem, JobUpdate.applyTo, hattributes]; rfl⟩
  finished := by
    rintro id ⟨attributes, hattributes, hterminal⟩
    rcases item_of_apply happly id with ⟨_, hitem⟩ | ⟨_, _, _, hnone, _⟩ |
      ⟨_, update, _, hcondition, _⟩ | ⟨update, _, hcondition, hitem⟩
    · exact ⟨attributes, hitem ▸ hattributes, hterminal⟩
    · rw [hnone] at hattributes
      cases hattributes
    · rw [not_terminal_of_claim hattributes hcondition] at hterminal
      cases hterminal
    · exact ⟨update.assign attributes, by rw [hitem, JobUpdate.applyTo, hattributes]; rfl,
        terminal_assign hattributes hcondition hterminal⟩

theorem Labelled.apply (hlabelled : table.Labelled) (happly : table.apply write = some after) :
    after.Labelled := by
  intro id attributes hattributes
  rcases item_of_apply happly id with ⟨_, hitem⟩ | ⟨job, _, hid, _, hitem⟩ |
    ⟨_, update, _, _, hitem⟩ | ⟨update, _, _, hitem⟩
  · exact hlabelled id attributes (hitem ▸ hattributes)
  · rw [hitem] at hattributes
    cases hattributes
    exact hid
  · rw [hitem] at hattributes
    obtain ⟨old, hold, rfl⟩ := Option.map_eq_some_iff.mp hattributes
    exact hlabelled id old hold
  · rw [hitem] at hattributes
    obtain ⟨old, hold, rfl⟩ := Option.map_eq_some_iff.mp hattributes
    have hsame : (update.assign old).id = old.id := by cases update <;> rfl
    exact hsame.trans (hlabelled id old hold)

omit [TimeStore] in
theorem labelled_empty : (DynamoTable.empty : DynamoTable Options Solution).Labelled := by
  intro id attributes hattributes
  cases hattributes

/-- A job that has just appeared, and one that had an open notification, have
one after every write but an acknowledgement. -/
theorem notified_of_apply (happly : table.apply write = some after)
    (hmark : ∀ now, write ≠ .update id (.markDelivered now)) (hknown : after.Known id)
    (hopen : table.Known id → (table.item id).notificationDeliveredAt = none) :
    (after.item id).notificationDeliveredAt = none := by
  obtain ⟨attributes, hattributes⟩ := hknown
  rcases item_of_apply happly id with ⟨_, hitem⟩ | ⟨_, _, _, _, hitem⟩ |
    ⟨_, update, _, _, hitem⟩ | ⟨update, rfl, _, hitem⟩
  · rw [hitem] at hattributes ⊢
    exact hopen ⟨attributes, hattributes⟩
  · rw [hitem]
    rfl
  · rw [hitem] at hattributes ⊢
    obtain ⟨old, hold, _⟩ := Option.map_eq_some_iff.mp hattributes
    exact hopen ⟨old, hold⟩
  · rw [hitem] at hattributes ⊢
    obtain ⟨old, hold, _⟩ := Option.map_eq_some_iff.mp hattributes
    cases update with
    | requeue now => rfl
    | markDelivered now => exact (hmark now rfl).elim
    | _ => exact hopen ⟨old, hold⟩

/-- An accepted completion finishes its job. -/
theorem finished_of_complete {token : String} {now : Time} {solution : Option Solution}
    {error : Option String}
    (happly : table.apply (.update id (.complete token now solution error)) = some after) :
    after.Finished id := by
  rcases item_of_apply happly id with ⟨hne, _⟩ | ⟨_, henqueue, _⟩ | ⟨_, _, hclaim, _⟩ |
    ⟨update, hupdate, hcondition, hitem⟩
  · exact (hne rfl).elim
  · cases henqueue
  · cases hclaim
  · cases hupdate
    obtain ⟨attributes, hattributes, _⟩ := (Option.any_eq_true _ _).mp hcondition
    exact ⟨_, by rw [hitem, JobUpdate.applyTo, hattributes]; rfl, terminal_completionStatus solution⟩

omit [TimeStore] in
/-- The record of a labelled item. -/
theorem record_of_item {found : JobItem Options Solution} {job : JobRecord Options Solution}
    (hlabelled : table.Labelled) (hfind : table.jobs.find? id = some found)
    (hrecord : recordFromItem found = .ok job) :
    job.id = id ∧ table.Known id ∧ (job.status.terminal = true → table.Finished id) := by
  have hitem : table.item id = found := item_of_find? hfind
  unfold recordFromItem at hrecord
  cases hattributes : found.attributes with
  | none =>
      rw [hattributes] at hrecord
      cases hrecord
  | some attributes =>
      rw [hattributes] at hrecord
      have hstored : (table.item id).attributes = some attributes := by rw [hitem, hattributes]
      simp only [Except.map] at hrecord
      split at hrecord
      · cases hrecord
      · cases hrecord
        exact ⟨hlabelled id attributes hstored, ⟨attributes, hstored⟩,
          fun h => ⟨attributes, hstored, h⟩⟩

end DynamoTable

namespace DynamoStore

variable {store : DynamoStore Options Solution} {version : DynamoTable Options Solution}

theorem labelled_of_saw (hsaw : store.Saw version) : version.Labelled :=
  hsaw.preserves DynamoTable.Labelled DynamoTable.labelled_empty
    fun _ _ _ hlabelled happly => hlabelled.apply happly

theorem retains_of_saw (hsaw : store.Saw version) : version.Retains store.current :=
  hsaw.relates DynamoTable.Retains .refl (fun _ _ _ => .trans)
    fun _ _ _ happly => DynamoTable.retains_of_apply happly

theorem saw_of_sees {consistentRead : Bool} (hsees : store.Sees consistentRead version) :
    store.Saw version := by
  unfold Sees at hsees
  cases consistentRead with
  | true =>
      rw [if_pos rfl] at hsees
      exact hsees ▸ store.saw_current
  | false => exact hsees

end DynamoStore

/-! ## The deployment -/

/-- The table of the job store and the two queues. -/
structure DynamoDeployment (Options Solution : Type) where
  table : DynamoStore Options Solution
  queues : SqsQueues

def DynamoDeployment.empty : DynamoDeployment Options Solution := ⟨.initial, []⟩

/-- What the parties ask for: a request to the queues, a request to the table
on behalf of a repository call, or the response of the API to a worker. -/
inductive DeploymentRequest (Options Solution : Type) where
  | queue (r : QueueRequest Options Solution)
  | table (caller : Caller) (call : RepositoryCall Options Solution)
      (r : DynamoRequest Options Solution)
  | httpResponse

@[reducible] def DeploymentRequest.Response : DeploymentRequest Options Solution → Type
  | .queue r => r.Response
  | .table _ _ r => r.Response
  | .httpResponse => Except Fault Unit

abbrev DeploymentProgram (Options Solution : Type) :=
  Program (DeploymentRequest Options Solution) DeploymentRequest.Response Fault

/-- The response of the API to a worker. -/
def httpResponse : DeploymentProgram Options Solution (Except Fault Unit) :=
  .request .httpResponse .done

/-- A repository call as the caller sees it: request by request on the table,
and for a worker through a response that may be lost. -/
def callThroughApi (recoveryDelay : ℤ) (caller : Caller) (call : RepositoryCall Options Solution) :
    DeploymentProgram Options Solution (Except Fault call.Result) := do
  let result ← ((call.dynamoProgram recoveryDelay).relay (.table caller call)
    fun _ reply => reply).attempt
  match caller with
  | .worker => do
      let response ← httpResponse
      match response with
      | .ok () => pure result
      | .error cause => pure (.error cause)
  | _ => pure result

/-- How the request of a party is carried out. -/
def carryOut (recoveryDelay : ℤ) :
    (r : QueueRequest Options Solution) → DeploymentProgram Options Solution r.Response
  | .repository caller call => callThroughApi recoveryDelay caller call
  | .utcNow => .request (.queue .utcNow) .done
  | .sendMessage queue body messageGroupId =>
      .request (.queue (.sendMessage queue body messageGroupId)) .done
  | .receiveMessage queue => .request (.queue (.receiveMessage queue)) .done
  | .deleteMessage queue receiptHandle =>
      .request (.queue (.deleteMessage queue receiptHandle)) .done
  | .changeMessageVisibility queue receiptHandle =>
      .request (.queue (.changeMessageVisibility queue receiptHandle)) .done

/-- One request of a party. -/
def DynamoDeployment.Answers (pid : ℕ) (store : DynamoDeployment Options Solution)
    (r : DeploymentRequest Options Solution) (reply : r.Response)
    (after : DynamoDeployment Options Solution) : Prop :=
  match r, reply with
  | .queue r, reply => after.table = store.table ∧ store.queues.Serves r reply after.queues
  | .table _ _ r, reply =>
      after.queues = store.queues ∧ store.table.Answers pid r reply after.table
  | .httpResponse, _ => after = store

/-- The parties over the deployment. -/
def dynamoDelivery (recoveryDelay : ℤ) (config : QueueConfig) :
    System (QueueCall Options Solution) (DeploymentRequest Options Solution)
      DeploymentRequest.Response Fault QueueCall.Result (DynamoDeployment Options Solution) where
  body := fun call => (call.program config).expand (carryOut recoveryDelay)
  admits := fun _ _ call => call.Admitted
  answers := DynamoDeployment.Answers
  halts := fun _ before after => after = before
  environment := fun before after =>
    ∃ queue, after = { before with queues := before.queues.send queue none }

/-- No eventually consistent read by which the dispatcher loads a job denies an
existing job, and none by which the API reports a job to a worker denies an
unfinished one. -/
def ReadsPresence (_pid : ℕ) (store : DynamoDeployment Options Solution) :
    (r : DeploymentRequest Options Solution) → r.Response → Prop
  | .table .dispatcher (.get _) (.getJob id false), reply =>
      reply = .ok none → ¬ store.table.current.Known id
  | .table .worker (.get _) (.getJob id false), reply =>
      reply = .ok none → store.table.current.Known id → store.table.current.Finished id
  | _, _ => True

def dynamoDeliveryPresent (recoveryDelay : ℤ) (config : QueueConfig) :
    System (QueueCall Options Solution) (DeploymentRequest Options Solution)
      DeploymentRequest.Response Fault QueueCall.Result (DynamoDeployment Options Solution) :=
  (dynamoDelivery recoveryDelay config).restrict ReadsPresence

/-! ## The contract of a repository call -/

def dynamoView : QueueView (DynamoDeployment Options Solution) where
  known := fun store id => store.table.current.Known id
  terminal := fun store id => store.table.current.Finished id
  pending := fun store id => (store.table.current.item id).notificationDeliveredAt = none
  queues := DynamoDeployment.queues

/-- When a request to the deployment is in order. -/
def DeploymentGuard (store : DynamoDeployment Options Solution) :
    DeploymentRequest Options Solution → Prop
  | .queue r => (∀ caller call, r ≠ .repository caller call) ∧ dynamoView.Guard store r
  | .table _ _ (.write (.update id (.markDelivered _))) => dynamoView.Published store id
  | _ => True

section Calls

variable {store after : DynamoDeployment Options Solution}

private theorem evolves_of_record {pid : ℕ} {write : DynamoWrite Options Solution}
    {next : DynamoTable Options Solution} (happly : store.table.current.apply write = some next)
    (htable : after.table = store.table.record pid write next happly)
    (hqueues : after.queues = store.queues) : dynamoView.Evolves store after where
  known := by
    intro id hknown
    have hnext := (DynamoTable.retains_of_apply happly).known id hknown
    simp only [dynamoView, htable]
    exact hnext
  terminal := by
    intro id hfinished
    have hnext := (DynamoTable.retains_of_apply happly).finished id hfinished
    simp only [dynamoView, htable]
    exact hnext
  messages := fun position message hmessage =>
    ⟨message, (congrArg (·[position]?) hqueues).trans hmessage, rfl, rfl, id⟩

/-- An accepted write loses no job, if only published ones are acknowledged. -/
theorem accounted_of_record {pid : ℕ} {write : DynamoWrite Options Solution}
    {next : DynamoTable Options Solution} (haccounted : dynamoView.Accounted store)
    (hguard : ∀ id now, write = .update id (.markDelivered now) → dynamoView.Published store id)
    (happly : store.table.current.apply write = some next)
    (htable : after.table = store.table.record pid write next happly)
    (hqueues : after.queues = store.queues) : dynamoView.Accounted after := by
  have hevolves : dynamoView.Evolves store after := evolves_of_record happly htable hqueues
  have hsame : dynamoView.queues after = dynamoView.queues store := hqueues
  refine ⟨?_, ?_, ?_⟩
  · intro message hmem id hid
    exact hevolves.known id (haccounted.bodies message (hsame ▸ hmem) id hid)
  · intro message hmem hdeleted id hid
    exact hevolves.terminal id (haccounted.deleted message (hsame ▸ hmem) hdeleted id hid)
  · intro id hknown
    have hcurrent : after.table.current = next := by rw [htable]; rfl
    by_cases hmark : ∃ now, write = .update id (.markDelivered now)
    · obtain ⟨now, hnow⟩ := hmark
      exact .inr (hevolves.published (hguard id now hnow))
    · by_cases hpublished : dynamoView.Published store id
      · exact .inr (hevolves.published hpublished)
      · left
        have hafter : next.Known id := hcurrent ▸ hknown
        have hopen := DynamoTable.notified_of_apply happly (fun now h => hmark ⟨now, h⟩) hafter
          fun hbefore => (haccounted.notified id hbefore).resolve_right hpublished
        simp only [dynamoView, hcurrent]
        exact hopen

/-- One request to the table in order. -/
theorem served_by_table {pid : ℕ} {r : DynamoRequest Options Solution} {reply : r.Response}
    (haccounted : dynamoView.Accounted store)
    (hguard : ∀ id now, r = .write (.update id (.markDelivered now)) →
      dynamoView.Published store id)
    (hqueues : after.queues = store.queues) (hanswers : store.table.Answers pid r reply after.table) :
    dynamoView.Accounted after ∧ dynamoView.Evolves store after := by
  have hkept : after.table = store.table →
      dynamoView.Accounted after ∧ dynamoView.Evolves store after := by
    intro htable
    have hsame : after = store := by
      cases after
      cases store
      cases htable
      cases hqueues
      rfl
    rw [hsame]
    exact ⟨haccounted, .refl store⟩
  have haccepts : ∀ write, r = .write write → store.table.Accepts pid write after.table →
      dynamoView.Accounted after ∧ dynamoView.Evolves store after := by
    rintro write rfl ⟨next, happly, htable⟩
    exact ⟨accounted_of_record haccounted (fun id now h => hguard id now (congrArg _ h)) happly
      htable hqueues, evolves_of_record happly htable hqueues⟩
  cases r with
  | write write =>
      cases reply with
      | written => exact haccepts write rfl hanswers
      | refused => exact hkept hanswers.1
      | failed cause => exact hanswers.elim hkept (haccepts write rfl)
  | _ => exact hkept hanswers.1

end Calls

/-- What a repository call may do on the table, while it is made by this
process and this caller. -/
def tableContract (pid : ℕ) (caller : Caller) (call : RepositoryCall Options Solution) :
    Contract (DynamoRequest Options Solution) DynamoRequest.Response
      (DynamoDeployment Options Solution) where
  invariant := dynamoView.Accounted
  answers := fun store r reply after =>
    (after.queues = store.queues ∧ store.table.Answers pid r reply after.table) ∧
      ReadsPresence pid store (.table caller call r) reply
  rely := dynamoView.Evolves
  guarantee := dynamoView.Evolves
  guard := fun store r => DeploymentGuard store (.table caller call r)
  rely_refl := .refl
  rely_trans := fun _ _ _ => .trans

section Programs

variable {pid : ℕ} {caller : Caller} {call : RepositoryCall Options Solution} {α : Type}
  {store : DynamoDeployment Options Solution}

/-- The request is not an acknowledgement of a notification. -/
def KeepsNotifications (r : DynamoRequest Options Solution) : Prop :=
  ∀ id now, r ≠ .write (.update id (.markDelivered now))

theorem DeploymentGuard.of_keeps {r : DynamoRequest Options Solution}
    (hkeeps : KeepsNotifications r) : DeploymentGuard store (.table caller call r) := by
  cases r with
  | write write =>
      cases write with
      | update id update =>
          cases update with
          | markDelivered now => exact (hkeeps id now rfl).elim
          | _ => trivial
      | _ => trivial
  | _ => trivial

/-- What an answer within the contract leaves. -/
theorem tableContract_served {store after : DynamoDeployment Options Solution}
    {r : DynamoRequest Options Solution} {reply : r.Response}
    (haccounted : dynamoView.Accounted store)
    (hguard : (tableContract pid caller call).guard store r)
    (hanswers : (tableContract pid caller call).answers store r reply after) :
    dynamoView.Accounted after ∧ dynamoView.Evolves store after := by
  refine served_by_table haccounted ?_ hanswers.1.1 hanswers.1.2
  rintro id now rfl
  exact hguard

/-- A request that acknowledges nothing, continued from its answer. -/
theorem tableContract_request {r : DynamoRequest Options Solution}
    {next : r.Response → DynamoProgram Options Solution α}
    {post : α → DynamoDeployment Options Solution → Prop} (hkeeps : KeepsNotifications r)
    (hnext : ∀ before reply after, dynamoView.Evolves store before →
      dynamoView.Evolves before after → dynamoView.Accounted after →
        before.table.Answers pid r reply after.table →
          ReadsPresence pid before (.table caller call r) reply →
            (next reply).Obeys (tableContract pid caller call) post after) :
    (Program.request r next).Obeys (tableContract pid caller call) post store := by
  intro before hrely hbefore
  have hguard : (tableContract pid caller call).guard before r := .of_keeps hkeeps
  refine ⟨hguard, ?_⟩
  intro reply after hanswers
  obtain ⟨hafter, hevolves⟩ := tableContract_served hbefore hguard hanswers
  exact ⟨hafter, hevolves, hnext before reply after hrely hevolves hafter hanswers.1.2
    hanswers.2⟩

/-- A fact that lasts may be returned. -/
theorem tableContract_done {value : α} {post : α → DynamoDeployment Options Solution → Prop}
    (hpost : ∀ later, dynamoView.Evolves store later → post value later) :
    (Program.done value : DynamoProgram Options Solution α).Obeys (tableContract pid caller call)
      post store :=
  fun later hrely _ => hpost later hrely

/-- A program that acknowledges nothing obeys. -/
theorem tableContract_issues {program : DynamoProgram Options Solution α}
    (hissues : program.Issues KeepsNotifications) :
    program.Obeys (tableContract pid caller call) (fun _ _ => True) store :=
  .of_issues (fun _ _ => DeploymentGuard.of_keeps) (fun _ _ _ _ => tableContract_served) hissues

/-- The record of an item read in some version. -/
theorem tableContract_decodeItem {item : Option (JobItem Options Solution)}
    {post : Option (JobRecord Options Solution) → DynamoDeployment Options Solution → Prop}
    (hnone : item = none → ∀ later, dynamoView.Evolves store later → post none later)
    (hsome : ∀ found job, item = some found → recordFromItem found = .ok job →
      ∀ later, dynamoView.Evolves store later → post (some job) later) :
    (DynamoDbJobRepository.decodeItem item).Obeys (tableContract pid caller call) post store := by
  cases item with
  | none => exact tableContract_done (hnone rfl)
  | some found =>
      simp only [DynamoDbJobRepository.decodeItem]
      cases hrecord : recordFromItem found with
      | error cause => trivial
      | ok job => exact tableContract_done (hsome found job rfl hrecord)

/-- The record of an item that some version of the table has. -/
theorem DynamoStore.record_of_saw {table : DynamoStore Options Solution}
    {version : DynamoTable Options Solution} {id : JobId} {found : JobItem Options Solution}
    {job : JobRecord Options Solution} (hsaw : table.Saw version)
    (hfind : version.jobs.find? id = some found) (hrecord : recordFromItem found = .ok job) :
    job.id = id ∧ table.current.Known id ∧
      (job.status.terminal = true → table.current.Finished id) := by
  obtain ⟨hid, hknown, hfinished⟩ :=
    DynamoTable.record_of_item (DynamoStore.labelled_of_saw hsaw) hfind hrecord
  have hretains := DynamoStore.retains_of_saw hsaw
  exact ⟨hid, hretains.known id hknown, fun h => hretains.finished id (hfinished h)⟩

/-! ### Each call -/

theorem tells_get (id : JobId) :
    (DynamoDbJobRepository.get id).Obeys (tableContract pid caller (.get id))
      (fun result later =>
        dynamoView.Tells store (.repository caller (.get id)) (.ok result) later) store := by
  refine tableContract_request (by intro _ _ h; cases h) ?_
  rintro before (cause | item) after hbefore hafter _ ⟨hsame, hreads⟩ hpresence
  · trivial
  obtain ⟨version, hsees, hitem⟩ := hreads item rfl
  refine tableContract_decodeItem ?_ ?_
  · rintro rfl later hlater
    refine ⟨fun job hjob => (by cases hjob), ?_⟩
    intro _ hknown
    have hpresent := hbefore.known id hknown
    refine ⟨?_, ?_⟩
    · rintro rfl
      exact hpresence rfl hpresent
    · rintro rfl
      exact (hafter.trans hlater).terminal id (hpresence rfl hpresent)
  · rintro found job rfl hrecord later hlater
    obtain ⟨hid, hknown, hfinished⟩ :=
      DynamoStore.record_of_saw (DynamoStore.saw_of_sees hsees) hitem.symm hrecord
    have hevolves := hafter.trans hlater
    refine ⟨?_, fun hjob => by cases hjob⟩
    rintro _ ⟨rfl⟩
    exact ⟨hid, hevolves.known id hknown, fun h => hevolves.terminal id (hfinished h)⟩

theorem knows_findByObjectKey (objectKey : String) :
    (DynamoDbJobRepository.findByObjectKey objectKey).Obeys (tableContract pid caller call)
      (fun result later => ∀ job, result = some job → dynamoView.known later job.id) store := by
  have hdecoded : ∀ (before after : DynamoDeployment Options Solution) (id : JobId)
      (item : Option (JobItem Options Solution)), dynamoView.Evolves before after →
        (∀ found, item = some found → ∃ version, before.table.Saw version ∧
          version.jobs.find? id = some found) →
        (DynamoDbJobRepository.decodeItem item).Obeys (tableContract pid caller call)
          (fun result later => ∀ job, result = some job → dynamoView.known later job.id) after := by
    intro before after id item hafter hsaw
    refine tableContract_decodeItem (fun _ _ _ job hjob => by cases hjob) ?_
    rintro found job hfound hrecord later hlater _ ⟨rfl⟩
    obtain ⟨version, hversion, hfind⟩ := hsaw found hfound
    obtain ⟨rfl, hknown, _⟩ := DynamoStore.record_of_saw hversion hfind hrecord
    exact (hafter.trans hlater).known _ hknown
  refine tableContract_request (by intro _ _ h; cases h) ?_
  rintro before (cause | (_ | id)) after hbefore hafter _ _ _
  · trivial
  · refine tableContract_request (by intro _ _ h; cases h) ?_
    rintro before' (cause | (_ | item)) after' hbefore' hafter' _ ⟨hsame, hreads⟩ _
    · trivial
    · exact hdecoded before' after' 0 none hafter' fun found hfound => by cases hfound
    · obtain ⟨version, hsaw, hfind, _⟩ := hreads item rfl
      refine hdecoded before' after' item.pk (some item) hafter' ?_
      rintro _ ⟨rfl⟩
      exact ⟨version, hsaw, hfind⟩
  · refine tableContract_request (by intro _ _ h; cases h) ?_
    rintro before' (cause | item) after' hbefore' hafter' _ ⟨hsame, hreads⟩ _
    · trivial
    · obtain ⟨version, hsees, hfind⟩ := hreads item rfl
      refine hdecoded before' after' id item hafter' ?_
      intro found hfound
      exact ⟨version, DynamoStore.saw_of_sees hsees, hfind.symm.trans hfound⟩

theorem tells_enqueue (job : JobRecord Options Solution) :
    (DynamoDbJobRepository.enqueue job).Obeys (tableContract pid caller call)
      (fun stored later => dynamoView.known later stored.id) store := by
  refine tableContract_request (by intro _ _ h; cases h) ?_
  rintro before (_ | _ | cause) after hbefore hafter hinv hanswers _
  · refine tableContract_done ?_
    intro later hlater
    refine hlater.known job.id ?_
    obtain ⟨next, happly, hrecorded⟩ := hanswers
    have hitem : (next.item job.id).attributes.isSome = true := by
      rcases DynamoTable.item_of_apply happly job.id with ⟨hne, _⟩ | ⟨_, henqueue, _, _, hitem⟩ |
        ⟨_, _, hclaim, _⟩ | ⟨_, hupdate, _⟩
      · exact (hne rfl).elim
      · cases henqueue
        rw [hitem]
        rfl
      · cases hclaim
      · cases hupdate
    simp only [dynamoView, hrecorded]
    exact Option.isSome_iff_exists.mp hitem
  · change (DynamoDbJobRepository.findByObjectKey job.objectKey >>= _).Obeys _ _ after
    refine (knows_findByObjectKey job.objectKey).bind hinv ?_
    rintro (_ | existing) later _ hknown
    · trivial
    · exact tableContract_done fun further hfurther => hfurther.known _ (hknown existing rfl)
  · trivial

theorem names_selectCandidate (id : JobId) (now : Time) :
    (DynamoDbJobRepository.requestedCandidate id now).Obeys (tableContract pid caller call)
      (fun candidate _ => ∀ job eligible, candidate = some (job, eligible) → job.id = id)
      store := by
  refine tableContract_request (by intro _ _ h; cases h) ?_
  rintro before (cause | (_ | item)) after hbefore hafter _ ⟨hsame, hreads⟩ _
  · trivial
  · exact tableContract_done fun _ _ job eligible h => by cases h
  · obtain ⟨version, hsees, hfind⟩ := hreads (some item) rfl
    cases hrecord : recordFromItem item with
    | error cause =>
        change (Program.ofExcept (recordFromItem item) >>= _).Obeys _ _ after
        rw [hrecord]
        trivial
    | ok job =>
        change (Program.ofExcept (recordFromItem item) >>= _).Obeys _ _ after
        rw [hrecord]
        refine tableContract_done ?_
        rintro _ _ found eligible hfound
        obtain ⟨_, _, heq⟩ := Option.map_eq_some_iff.mp hfound
        cases heq
        exact (DynamoStore.record_of_saw (DynamoStore.saw_of_sees hsees) hfind.symm hrecord).1

/-- A claimed lease is one of the requested job. -/
theorem tells_claim (id : JobId) (leaseSeconds : UInt64) :
    (DynamoDbJobRepository.claim (some id) leaseSeconds).Obeys (tableContract pid caller call)
      (fun lease _ => ∀ held, lease = some held → held.jobId = id) store := by
  refine tableContract_request (by intro _ _ h; cases h) ?_
  intro before now after hbefore hafter hinv _ _
  change (DynamoDbJobRepository.requestedCandidate id now >>= _).Obeys _ _ after
  refine (names_selectCandidate id now).bind hinv ?_
  rintro (_ | ⟨job, eligible⟩) later hlater hid
  · exact tableContract_done fun _ _ held h => by cases h
  · refine tableContract_request (by intro _ _ h; cases h) ?_
    intro before' leaseToken after' _ _ _ _ _
    dsimp only [bind, Program.bind]
    cases SeizaServer.leaseExpiresAt now leaseSeconds with
    | none => trivial
    | some expires =>
        refine tableContract_request (by intro _ _ h; cases h) ?_
        rintro before'' (_ | _ | cause) after'' _ _ _ _ _
        · refine tableContract_done ?_
          rintro _ _ _ ⟨rfl⟩
          exact hid job eligible rfl
        · exact tableContract_done fun _ _ held h => by cases h
        · trivial

theorem tells_complete (id : JobId) (leaseToken : String) (solution : Option Solution)
    (error : Option String) :
    (DynamoDbJobRepository.complete id leaseToken solution error :
      DynamoProgram Options Solution Bool).Obeys (tableContract pid caller call)
      (fun accepted later => accepted = true → dynamoView.terminal later id) store := by
  unfold DynamoDbJobRepository.complete
  split_ifs
  · trivial
  · refine tableContract_request (by intro _ _ h; cases h) ?_
    intro before now after hbefore hafter _ _ _
    refine tableContract_request (by intro _ _ h; cases h) ?_
    rintro before' (_ | _ | cause) after' hbefore' hafter' _ hanswers _
    · refine tableContract_done ?_
      intro later hlater _
      refine hlater.terminal id ?_
      obtain ⟨next, happly, hrecorded⟩ := hanswers
      simp only [dynamoView, hrecorded]
      exact DynamoTable.finished_of_complete happly
    · exact tableContract_done fun _ _ h => by cases h
    · trivial

theorem tells_pendingNotifications (recoveryDelay : ℤ) (limit : ℕ) :
    (DynamoDbJobRepository.pendingNotifications recoveryDelay limit).Obeys
      (tableContract pid caller call)
      (fun ids later => ∀ id ∈ ids, dynamoView.known later id) store := by
  refine tableContract_request (by intro _ _ h; cases h) ?_
  intro before now after hbefore hafter _ _ _
  change (DynamoDbJobRepository.jobIdsByStatus _ _ _ _).Obeys _ _ after
  unfold DynamoDbJobRepository.jobIdsByStatus
  split_ifs
  · exact tableContract_done fun _ _ id hmem => by cases hmem
  · refine tableContract_request (by intro _ _ h; cases h) ?_
    rintro before' (cause | ids) after' hbefore' hafter' _ ⟨hsame, hreads⟩ _
    · trivial
    · refine tableContract_done ?_
      intro later hlater id hmem
      obtain ⟨version, hsaw, attributes, hattributes, _⟩ := (hreads ids rfl).1 id hmem
      exact (hafter'.trans hlater).known id
        ((DynamoStore.retains_of_saw hsaw).known id ⟨attributes, hattributes⟩)

omit [TimeStore] in
theorem keeps_get (id : JobId) :
    (DynamoDbJobRepository.get id : DynamoProgram Options Solution _).Issues
      KeepsNotifications := by
  refine ⟨(by intro _ _ h; cases h), ?_⟩
  rintro (cause | (_ | item))
  · trivial
  · trivial
  · exact Program.issues_ofExcept _

omit [TimeStore] in
theorem keeps_jobIdsByStatus (status : JobStatus) (createdBefore : Option Time)
    (undeliveredOnly : Bool) (limit : Option ℕ) :
    (DynamoDbJobRepository.jobIdsByStatus status createdBefore undeliveredOnly limit :
      DynamoProgram Options Solution _).Issues KeepsNotifications := by
  unfold DynamoDbJobRepository.jobIdsByStatus
  split_ifs
  · trivial
  · exact ⟨(by intro _ _ h; cases h), Program.issues_ofExcept⟩

omit [TimeStore] in
theorem keeps_requeueEach (now : Time) (ids : List JobId) :
    (DynamoDbJobRepository.requeueEach now ids : DynamoProgram Options Solution Unit).Issues
      KeepsNotifications := by
  induction ids with
  | nil => trivial
  | cons id rest ih =>
      refine ⟨(by intro _ _ h; cases h), ?_⟩
      rintro (_ | _ | cause)
      · exact ih
      · exact ih
      · trivial

omit [TimeStore] in
theorem keeps_loadQueued (ids : List JobId) :
    (DynamoDbJobRepository.loadQueued ids : DynamoProgram Options Solution _).Issues
      KeepsNotifications := by
  induction ids with
  | nil => trivial
  | cons id rest ih => exact (keeps_get id).bind fun _ => ih.bind fun _ => trivial

omit [TimeStore] in
theorem keeps_scoreCandidates (now : Time) (jobs : List (JobRecord Options Solution))
    (best : Option (ℚ × JobRecord Options Solution)) :
    (DynamoDbJobRepository.scoreCandidates now jobs best).Issues KeepsNotifications := by
  induction jobs generalizing best with
  | nil => trivial
  | cons job rest ih =>
      refine ⟨(by intro _ _ h; cases h), ?_⟩
      rintro (cause | last)
      · trivial
      · exact ih _

omit [TimeStore] in
/-- A claim without a requested job only reads and requeues before it
claims. -/
theorem keeps_claim (leaseSeconds : UInt64) :
    (DynamoDbJobRepository.claim none leaseSeconds :
      DynamoProgram Options Solution _).Issues KeepsNotifications := by
  refine ⟨(by intro _ _ h; cases h), ?_⟩
  intro now
  have hselect : (DynamoDbJobRepository.selectCandidate none now :
      DynamoProgram Options Solution _).Issues KeepsNotifications := by
    refine ((keeps_jobIdsByStatus _ _ _ _).bind (keeps_requeueEach now)).bind fun _ => ?_
    refine Program.Issues.bind ?_ fun _ => trivial
    refine (keeps_jobIdsByStatus _ _ _ _).bind fun ids => ?_
    refine (keeps_loadQueued ids).bind fun jobs => ?_
    exact (keeps_scoreCandidates now jobs none).bind fun _ => trivial
  refine hselect.bind ?_
  rintro (_ | ⟨job, eligible⟩)
  · trivial
  · refine ⟨(by intro _ _ h; cases h), ?_⟩
    intro leaseToken
    dsimp only [bind, Program.bind]
    cases SeizaServer.leaseExpiresAt now leaseSeconds with
    | none => trivial
    | some expires =>
        refine ⟨(by intro _ _ h; cases h), ?_⟩
        rintro (_ | _ | cause) <;> trivial

omit [TimeStore] in
theorem keeps_heartbeat (id : JobId) (leaseToken : String) (leaseSeconds : UInt64) :
    (DynamoDbJobRepository.heartbeat id leaseToken leaseSeconds :
      DynamoProgram Options Solution Bool).Issues KeepsNotifications := by
  refine ⟨(by intro _ _ h; cases h), ?_⟩
  intro now
  dsimp only [bind, Program.bind]
  cases SeizaServer.leaseExpiresAt now leaseSeconds with
  | none => trivial
  | some expires =>
      refine ⟨(by intro _ _ h; cases h), ?_⟩
      rintro (_ | _ | cause) <;> trivial

omit [TimeStore] in
theorem keeps_leaseActive (item : Option (JobItem Options Solution)) (leaseToken : String) :
    (DynamoDbJobRepository.leaseActive item leaseToken).Issues KeepsNotifications := by
  unfold DynamoDbJobRepository.leaseActive
  split
  · trivial
  · split
    · trivial
    · exact ⟨(by intro _ _ h; cases h), fun _ => trivial⟩

omit [TimeStore] in
theorem keeps_inputKey (id : JobId) (leaseToken : String) :
    (DynamoDbJobRepository.inputKey id leaseToken :
      DynamoProgram Options Solution _).Issues KeepsNotifications := by
  refine (keeps_get id).bind ?_
  rintro (_ | job)
  · trivial
  · refine ⟨(by intro _ _ h; cases h), ?_⟩
    rintro (cause | item)
    · trivial
    · exact (keeps_leaseActive item leaseToken).bind fun _ => trivial

omit [TimeStore] in
theorem keeps_donateValidation (id : JobId) (donation : ValidationDonation) :
    (DynamoDbJobRepository.donateValidation id donation :
      DynamoProgram Options Solution Bool).Issues KeepsNotifications := by
  refine ⟨(by intro _ _ h; cases h), ?_⟩
  rintro (_ | _ | cause) <;> trivial

/-- A published job may be acknowledged. -/
theorem obeys_markNotificationDelivered {id : JobId} (hpublished : dynamoView.Published store id) :
    (DynamoDbJobRepository.markNotificationDelivered id :
      DynamoProgram Options Solution Unit).Obeys (tableContract pid caller call)
      (fun _ _ => True) store := by
  refine tableContract_request (by intro _ _ h; cases h) ?_
  intro before now after hbefore hafter _ _ _ later hrely hlater
  have hguard : (tableContract pid caller call).guard later
      (.write (.update id (.markDelivered now))) :=
    ((hbefore.trans hafter).trans hrely).published hpublished
  refine ⟨hguard, ?_⟩
  intro outcome further hanswers
  obtain ⟨hfurther, hevolves⟩ := tableContract_served hlater hguard hanswers
  refine ⟨hfurther, hevolves, ?_⟩
  cases outcome with
  | failed cause => trivial
  | _ => exact tableContract_done fun _ _ => trivial

/-- Every repository call that is in order obeys, and its result tells what it
should. -/
theorem tells_call (recoveryDelay : ℤ) (call : RepositoryCall Options Solution)
    (hguard : dynamoView.Guard store (.repository caller call)) :
    (call.dynamoProgram recoveryDelay).Obeys (tableContract pid caller call)
      (fun result later => dynamoView.Tells store (.repository caller call) (.ok result) later)
      store := by
  cases call with
  | enqueue job =>
      refine (tells_enqueue job).mono ?_
      rintro stored later hknown _ ⟨rfl⟩
      exact hknown
  | get id => exact tells_get id
  | findByObjectKey objectKey =>
      exact (knows_findByObjectKey objectKey).mono fun _ _ _ => trivial
  | claim requestedJobId leaseSeconds =>
      cases requestedJobId with
      | none => exact tableContract_issues (keeps_claim leaseSeconds)
      | some id =>
          refine (tells_claim id leaseSeconds).mono ?_
          rintro _ later hid held ⟨rfl⟩
          exact hid held rfl
  | heartbeat id leaseToken leaseSeconds =>
      exact tableContract_issues (keeps_heartbeat id leaseToken leaseSeconds)
  | inputKey id leaseToken => exact tableContract_issues (keeps_inputKey id leaseToken)
  | complete id leaseToken solution error =>
      refine (tells_complete id leaseToken solution error).mono ?_
      rintro accepted later haccepted htrue
      exact haccepted (Except.ok.inj htrue)
  | donateValidation id donation => exact tableContract_issues (keeps_donateValidation id donation)
  | pendingNotifications limit =>
      refine (tells_pendingNotifications recoveryDelay limit).mono ?_
      rintro ids later hknown _ ⟨rfl⟩
      exact hknown
  | markNotificationDelivered id => exact obeys_markNotificationDelivered hguard

end Programs

/-! ## Every run -/

/-- All parties move the deployment along the same order. -/
def dynamoDeliveryDiscipline (recoveryDelay : ℤ) (config : QueueConfig) :
    Discipline (@dynamoDeliveryPresent Options Solution _ recoveryDelay config) where
  invariant := dynamoView.Accounted
  rely := fun _ => dynamoView.Evolves
  guarantee := fun _ => dynamoView.Evolves
  guard := fun _ => DeploymentGuard
  post := fun _ _ _ => True
  rely_refl := fun _ => .refl
  rely_trans := fun _ _ _ _ => .trans
  compatible := fun _ _ _ _ _ h => h
  environment := by
    rintro before after hinv ⟨queue, rfl⟩
    have hsame : dynamoView.SameJobs before
        { before with queues := before.queues.send queue none } :=
      ⟨fun _ => Iff.rfl, fun _ => Iff.rfl, fun _ => Iff.rfl⟩
    exact ⟨hinv.sent hsame rfl (by intro id h; cases h), fun _ => hsame.evolves_of_append rfl⟩
  halts := by
    rintro pid before after hinv rfl
    exact ⟨hinv, fun _ _ => .refl _⟩

section Delivery

variable {recoveryDelay : ℤ} {config : QueueConfig} {pid : ℕ}
  {store : DynamoDeployment Options Solution}

/-- A request to the queues is answered as the parties expect. -/
theorem dynamoDelivery_queue {r : QueueRequest Options Solution}
    {next : r.Response → DeploymentProgram Options Solution r.Response}
    (hnext : next = .done) (hrepository : ∀ caller call, r ≠ .repository caller call)
    (hguard : dynamoView.Guard store r) :
    (Program.request (.queue r) next : DeploymentProgram Options Solution r.Response).Obeys
      ((dynamoDeliveryDiscipline recoveryDelay config).contract pid)
      ((dynamoView.contract dynamoView.Accounted).answers store r) store := by
  subst hnext
  intro later hrely hlater
  have hallowed := hguard.later hrely
  refine ⟨⟨hrepository, hallowed⟩, ?_⟩
  rintro reply after ⟨⟨htable, hserves⟩, _⟩
  have hsame : dynamoView.SameJobs later after := by
    constructor <;> intro id <;> simp only [dynamoView, htable]
  obtain ⟨hafter, hevolves, htells⟩ := hlater.served hsame hrepository hallowed hserves
  refine ⟨hafter, hevolves, ?_⟩
  intro further hfurther hinvariant
  exact ⟨hinvariant, (hrely.trans hevolves).trans hfurther, (htells.later hfurther).earlier hrely⟩

/-- A repository call carried out on the table tells the caller what it
should, if its response arrives. -/
theorem dynamoDelivery_call {caller : Caller} {call : RepositoryCall Options Solution}
    (hinv : dynamoView.Accounted store)
    (hguard : dynamoView.Guard store (.repository caller call)) :
    (callThroughApi recoveryDelay caller call).Obeys
      ((dynamoDeliveryDiscipline recoveryDelay config).contract pid)
      ((dynamoView.contract dynamoView.Accounted).answers store (.repository caller call))
      store := by
  have htold : (call.dynamoProgram recoveryDelay).Obeys (tableContract pid caller call)
      (fun result later =>
        dynamoView.Tells store (.repository caller call) (.ok result) later) store :=
    tells_call recoveryDelay call hguard
  have hrelayed : ((call.dynamoProgram recoveryDelay).relay
      (.table caller call : _ → DeploymentRequest Options Solution) fun _ reply => reply).Obeys
      ((dynamoDeliveryDiscipline recoveryDelay config).contract pid)
      (fun result later =>
        dynamoView.Tells store (.repository caller call) (.ok result) later) store :=
    htold.relay rfl rfl rfl (fun _ _ h => h) fun _ _ _ _ h => h
  have hattempt := (hrelayed.attempt).since (fun _ _ h => h) (QueueView.Evolves.refl store)
  refine hattempt.bind hinv ?_
  rintro result later hlater ⟨hevolves, hresult⟩
  have htells : dynamoView.Tells store (.repository caller call) result later := by
    cases result with
    | error cause => exact QueueView.Tells.error call cause
    | ok value => exact hresult value rfl
  have hpure : ∀ response, dynamoView.Tells store (.repository caller call) response later →
      (Program.done response : DeploymentProgram Options Solution (Except Fault call.Result)).Obeys
        ((dynamoDeliveryDiscipline recoveryDelay config).contract pid)
        ((dynamoView.contract dynamoView.Accounted).answers store (.repository caller call))
        later := by
    intro response hresponse further hfurther hinvariant
    exact ⟨hinvariant, hevolves.trans hfurther, hresponse.later hfurther⟩
  cases caller with
  | api => exact hpure result htells
  | dispatcher => exact hpure result htells
  | worker =>
      intro further hfurther hinvariant
      refine ⟨trivial, ?_⟩
      rintro (cause | ⟨⟩) after ⟨rfl, _⟩
      · exact ⟨hinvariant, .refl _,
          (hpure (.error cause) (QueueView.Tells.error call cause)).later hfurther⟩
      · exact ⟨hinvariant, .refl _, (hpure result htells).later hfurther⟩

/-- Every party obeys. -/
theorem dynamoDelivery_obeys {call : QueueCall Options Solution}
    (hinv : dynamoView.Accounted store) (hadmitted : call.Admitted) :
    ((call.program config).expand (carryOut recoveryDelay)).Obeys
      ((dynamoDeliveryDiscipline recoveryDelay config).contract pid) (fun _ _ => True) store := by
  have hcareful : (call.program config).Obeys (dynamoView.contract dynamoView.Accounted)
      (fun _ _ => True) store := Careful.program config hadmitted
  refine hcareful.expand ?_ ?_ hinv ?_
  · rfl
  · intro r store hstore hguard
    cases r with
    | repository caller call => exact dynamoDelivery_call hstore hguard
    | _ => exact dynamoDelivery_queue rfl (fun _ _ h => by cases h) hguard
  · exact fun _ _ h => h

end Delivery

/-- What the reads of a run have to establish about the jobs and messages of a
configuration. -/
structure DynamoDelivered
    (config : Configuration (QueueCall Options Solution) (DeploymentRequest Options Solution)
      DeploymentRequest.Response Fault QueueCall.Result (DynamoDeployment Options Solution)) :
    Prop where
  /-- A party that is about to delete a message deletes one of a finished job,
  or one that names no job. -/
  deletes : ∀ pid call queue receiptHandle next message id,
    config.process pid = some ⟨call, .request (.queue (.deleteMessage queue receiptHandle)) next⟩ →
    config.store.queues[receiptHandle]? = some message → message.body = some id →
      config.store.table.current.Finished id
  /-- A party that is about to acknowledge a notification does so for a job of
  which a message was sent. -/
  acknowledges : ∀ pid call caller repositoryCall id now next,
    config.process pid = some ⟨call,
      .request (.table caller repositoryCall (.write (.update id (.markDelivered now)))) next⟩ →
      ∃ message ∈ config.store.queues, message.body = some id
  /-- A queued job with a closed notification has a message that is not
  deleted. -/
  queued : ∀ id attributes deliveredAt,
    (config.store.table.current.item id).attributes = some attributes →
    attributes.status = .queued →
    (config.store.table.current.item id).notificationDeliveredAt = some deliveredAt →
      ∃ message ∈ config.store.queues, message.body = some id ∧ message.deleted = false

/-- No queued job is lost in a run in which no eventually consistent read
denies a job. -/
theorem dynamo_queue_delivery {recoveryDelay : ℤ} {config : QueueConfig}
    {labels : List (Label (QueueCall Options Solution) (DeploymentRequest Options Solution)
      DeploymentRequest.Response Fault)}
    {reached : Configuration (QueueCall Options Solution) (DeploymentRequest Options Solution)
      DeploymentRequest.Response Fault QueueCall.Result (DynamoDeployment Options Solution)}
    (hrun : Run (dynamoDeliveryPresent recoveryDelay config).Step (.idle .empty) labels reached) :
    DynamoDelivered reached := by
  have hinitial : dynamoView.Accounted (DynamoDeployment.empty : DynamoDeployment Options Solution) :=
    ⟨nofun, nofun, by rintro id ⟨attributes, hattributes⟩; cases hattributes⟩
  have hrespected : (dynamoDeliveryDiscipline recoveryDelay config).Respected reached :=
    Discipline.respected_of_run
      (fun pid _ _ hinv hadmitted => dynamoDelivery_obeys hinv hadmitted) hinitial hrun
  refine ⟨?_, ?_, ?_⟩
  · intro pid call queue receiptHandle next message id hprocess hmessage hbody
    obtain ⟨_, body, ⟨carried, hcarried, hsame⟩, hfinished⟩ := hrespected.guard hprocess
    have heq : carried = message := Option.some.inj (hcarried.symm.trans hmessage)
    exact hfinished id (hsame.symm.trans (heq ▸ hbody))
  · intro pid call caller repositoryCall id now next hprocess
    exact hrespected.guard hprocess
  · intro id attributes deliveredAt hattributes hqueued hdelivered
    have hunfinished : ¬ reached.store.table.current.Finished id := by
      rintro ⟨other, hother, hterminal⟩
      cases hattributes.symm.trans hother
      rw [hqueued] at hterminal
      cases hterminal
    rcases hrespected.1.undeleted ⟨attributes, hattributes⟩ hunfinished with hopen | hmessage
    · cases hdelivered.symm.trans hopen
    · exact hmessage

end Stores

/-! ### Runs on fixed inputs -/

attribute [local instance] TimeStore.bytewise

/-- Processes may read an old table, and their claims may meet a conflict. -/
def serveDeployment (lags conflicts : ℕ → Bool) (pid : ℕ)
    (store : DynamoDeployment Options Solution) :
    (r : DeploymentRequest Options Solution) →
      Option (r.Response × DynamoDeployment Options Solution)
  | .queue r => (store.queues.serve r).map fun served =>
      (served.1, { store with queues := served.2 })
  | .table _ _ (.write (.claim id owner update)) =>
      if conflicts pid then some (.refused, store)
      else (store.table.serve lags pid (.write (.claim id owner update))).map fun served =>
        (served.1, { store with table := served.2 })
  | .table _ _ r => (store.table.serve lags pid r).map fun served =>
      (served.1, { store with table := served.2 })
  | .httpResponse => some (.ok (), store)

theorem answers_of_serveDeployment {lags conflicts : ℕ → Bool} (pid : ℕ)
    (store : DynamoDeployment Options Solution) (r : DeploymentRequest Options Solution)
    (reply : r.Response) (after : DynamoDeployment Options Solution)
    (hserved : serveDeployment lags conflicts pid store r = some (reply, after)) :
    store.Answers pid r reply after := by
  have htable : ∀ (r : DynamoRequest Options Solution) (reply : r.Response),
      ((store.table.serve lags pid r).map fun served =>
        (served.1, ({ store with table := served.2 } : DynamoDeployment Options Solution))) =
          some (reply, after) →
        after.queues = store.queues ∧ store.table.Answers pid r reply after.table := by
    intro r reply hreply
    obtain ⟨⟨answer, table⟩, hanswer, heq⟩ := Option.map_eq_some_iff.mp hreply
    cases heq
    exact ⟨rfl, DynamoStore.answers_of_serve pid store.table r answer table hanswer⟩
  cases r with
  | queue r =>
      obtain ⟨⟨answer, queues⟩, hanswer, heq⟩ := Option.map_eq_some_iff.mp hserved
      cases heq
      exact ⟨rfl, SqsQueues.serves_of_serve hanswer⟩
  | table caller call r =>
      have hanswers := htable r reply
      cases r with
      | write write =>
          cases write with
          | claim id owner update =>
              simp only [serveDeployment] at hserved
              split at hserved
              · cases hserved
                exact ⟨rfl, rfl, .inr trivial⟩
              · exact hanswers hserved
          | _ => exact hanswers hserved
      | _ => exact hanswers hserved
  | httpResponse =>
      cases hserved
      rfl

/-- Without a lag no read denies a job. -/
theorem readsPresence_of_serveDeployment {conflicts : ℕ → Bool} (pid : ℕ)
    (store : DynamoDeployment Options Solution) (r : DeploymentRequest Options Solution)
    (reply : r.Response) (after : DynamoDeployment Options Solution)
    (hserved : serveDeployment (fun _ => false) conflicts pid store r = some (reply, after)) :
    store.Answers pid r reply after ∧ ReadsPresence pid store r reply := by
  refine ⟨answers_of_serveDeployment pid store r reply after hserved, ?_⟩
  have hget : ∀ id, store.table.current.jobs.find? id = none →
      ¬ store.table.current.Known id := by
    rintro id hfind ⟨attributes, hattributes⟩
    rw [DynamoTable.item, hfind] at hattributes
    cases hattributes
  unfold ReadsPresence
  split
  · cases hserved
    intro hnone
    exact hget _ (Except.ok.inj hnone)
  · cases hserved
    intro hnone hknown
    exact (hget _ (Except.ok.inj hnone) hknown).elim
  · trivial

/-- The upload publishes its job and acknowledges the notification.  A worker
then receives the message, its claim meets a conflict, and the read that is to
tell whether the job is finished is older than the job. -/
def orphaningSchedule : List (Move (QueueCall Unit Unit)) :=
  .start 0 (.enqueueStored sampleUpload) :: List.replicate 7 (.ask 0) ++
    .start 1 (.runSqsWorker (.new 3) [⟨0, .ok ()⟩]) :: List.replicate 9 (.ask 1)

theorem dynamo_queue_delivery_counterexample :
    ∃ labels reached,
      Run (@dynamoDelivery Unit Unit _ 0 sampleConfig).Step (.idle .empty) labels reached ∧
      (∃ attributes, (reached.store.table.current.item 1).attributes = some attributes ∧
        attributes.status = .queued) ∧
      (reached.store.table.current.item 1).notificationDeliveredAt ≠ none ∧
      ∀ message ∈ reached.store.queues, message.body = some 1 → message.deleted = true := by
  have hplays : ((Configuration.idle .empty).moves (dynamoDelivery 0 sampleConfig).body
      (fun _ _ => isParty) (serveDeployment (fun pid => pid = 1) fun pid => pid = 1)
      orphaningSchedule).any (fun reached =>
        decide (((reached.store.table.current.item 1).attributes.map JobAttributes.status =
            some .queued) ∧
          (reached.store.table.current.item 1).notificationDeliveredAt ≠ none ∧
          ∀ message ∈ reached.store.queues, message.body = some 1 → message.deleted = true)) =
        true := by
    decide
  simp only [Option.any_eq_true, decide_eq_true_eq] at hplays
  obtain ⟨reached, hmoves, hstatus, hdelivered, hdeleted⟩ := hplays
  obtain ⟨attributes, hattributes, hqueued⟩ := Option.map_eq_some_iff.mp hstatus
  have hadmission : ∀ (pid : ℕ) (store : DynamoDeployment Unit Unit) (call : QueueCall Unit Unit),
      isParty call = true → (dynamoDelivery 0 sampleConfig).admits pid store call :=
    fun _ _ _ => QueueCall.admitted_of_isParty
  obtain ⟨labels, hrun⟩ := System.run_of_moves hadmission answers_of_serveDeployment hmoves
  exact ⟨labels, reached, hrun, ⟨attributes, hattributes, hqueued⟩, hdelivered, hdeleted⟩

/-- The same run without the lag ends one request earlier. -/
theorem dynamo_queue_delivery_conflict :
    ∃ labels reached,
      Run (@dynamoDeliveryPresent Unit Unit _ 0 sampleConfig).Step (.idle .empty) labels reached ∧
      (∃ attributes deliveredAt,
        (reached.store.table.current.item 1).attributes = some attributes ∧
        attributes.status = .queued ∧
        (reached.store.table.current.item 1).notificationDeliveredAt = some deliveredAt) ∧
      ∃ message ∈ reached.store.queues, message.body = some 1 ∧ message.deleted = false := by
  have hplays : ((Configuration.idle .empty).moves (dynamoDeliveryPresent 0 sampleConfig).body
      (fun _ _ => isParty) (serveDeployment (fun _ => false) fun pid => pid = 1)
      (orphaningSchedule.take 17)).any (fun reached =>
        decide (((reached.store.table.current.item 1).attributes.map JobAttributes.status =
            some .queued) ∧
          (reached.store.table.current.item 1).notificationDeliveredAt.isSome = true)) =
        true := by
    decide
  simp only [Option.any_eq_true, decide_eq_true_eq] at hplays
  obtain ⟨reached, hmoves, hstatus, hdelivered⟩ := hplays
  obtain ⟨attributes, hattributes, hqueued⟩ := Option.map_eq_some_iff.mp hstatus
  obtain ⟨deliveredAt, hdelivered⟩ := Option.isSome_iff_exists.mp hdelivered
  have hadmission : ∀ (pid : ℕ) (store : DynamoDeployment Unit Unit) (call : QueueCall Unit Unit),
      isParty call = true → (dynamoDeliveryPresent 0 sampleConfig).admits pid store call :=
    fun _ _ _ => QueueCall.admitted_of_isParty
  obtain ⟨labels, hrun⟩ := System.run_of_moves hadmission readsPresence_of_serveDeployment hmoves
  exact ⟨labels, reached, hrun, ⟨attributes, deliveredAt, hattributes, hqueued, hdelivered⟩,
    (dynamo_queue_delivery hrun).queued 1 attributes deliveredAt hattributes hqueued hdelivered⟩

end SeizaServer
