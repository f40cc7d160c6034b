import SeizaServer.QueueActors

/-!
# What the parties around the queue need from the job store

The parties are verified once, against a view of the store which only says
which jobs exist, which are finished and which notifications are open.  Every
fact they rely on stays true once it is true, whoever moves next.
-/

namespace SeizaServer

open Interaction
open Sqs (SqsQueueClass SqsQueueSchedule)

variable {Options Solution σ β : Type}

/-- A store as the queue sees it. -/
structure QueueView (σ : Type) where
  known : σ → JobId → Prop
  terminal : σ → JobId → Prop
  pending : σ → JobId → Prop
  queues : σ → SqsQueues

namespace QueueView

variable (view : QueueView σ)

/-- Some message with this job was sent. -/
def Published (store : σ) (id : JobId) : Prop :=
  ∃ message ∈ view.queues store, message.body = some id

/-- The message at this position has this body. -/
def Carries (store : σ) (position : ℕ) (body : Option JobId) : Prop :=
  ∃ message, (view.queues store)[position]? = some message ∧ message.body = body

/-- No job is lost: a job whose notification is closed was published, and a
deleted message is one of a finished job. -/
structure Accounted (store : σ) : Prop where
  bodies : ∀ message ∈ view.queues store, ∀ id, message.body = some id → view.known store id
  deleted : ∀ message ∈ view.queues store, message.deleted = true →
    ∀ id, message.body = some id → view.terminal store id
  notified : ∀ id, view.known store id → view.pending store id ∨ view.Published store id

/-- The order along which a store moves: jobs stay, finished jobs stay
finished, and messages stay what they are. -/
structure Evolves (before after : σ) : Prop where
  known : ∀ id, view.known before id → view.known after id
  terminal : ∀ id, view.terminal before id → view.terminal after id
  messages : ∀ (position : ℕ) (message : SqsMessage),
    (view.queues before)[position]? = some message →
      ∃ later, (view.queues after)[position]? = some later ∧ later.queue = message.queue ∧
        later.body = message.body ∧ (message.deleted = true → later.deleted = true)

variable {view} {store before after : σ}

theorem Evolves.refl (store : σ) : view.Evolves store store :=
  ⟨fun _ h => h, fun _ h => h, fun _ message h => ⟨message, h, rfl, rfl, fun h => h⟩⟩

theorem Evolves.trans {first second third : σ} (hfirst : view.Evolves first second)
    (hsecond : view.Evolves second third) : view.Evolves first third where
  known := fun id h => hsecond.known id (hfirst.known id h)
  terminal := fun id h => hsecond.terminal id (hfirst.terminal id h)
  messages := by
    intro position message hmessage
    obtain ⟨next, hnext, hqueue, hbody, hdeleted⟩ := hfirst.messages position message hmessage
    obtain ⟨later, hlater, hqueue', hbody', hdeleted'⟩ := hsecond.messages position next hnext
    exact ⟨later, hlater, hqueue'.trans hqueue, hbody'.trans hbody,
      fun h => hdeleted' (hdeleted h)⟩

theorem Evolves.carries {position : ℕ} {body : Option JobId} (hevolves : view.Evolves before after)
    (hcarries : view.Carries before position body) : view.Carries after position body := by
  obtain ⟨message, hmessage, hbody⟩ := hcarries
  obtain ⟨later, hlater, _, hsame, _⟩ := hevolves.messages position message hmessage
  exact ⟨later, hlater, hsame.trans hbody⟩

theorem Evolves.published {id : JobId} (hevolves : view.Evolves before after)
    (hpublished : view.Published before id) : view.Published after id := by
  obtain ⟨message, hmem, hbody⟩ := hpublished
  obtain ⟨position, hposition⟩ := List.getElem?_of_mem hmem
  obtain ⟨later, hlater, hsame⟩ := hevolves.carries ⟨message, hposition, hbody⟩
  exact ⟨later, List.mem_of_getElem? hlater, hsame⟩

/-- An unfinished job with a closed notification has a message that is not
deleted. -/
theorem Accounted.undeleted (haccounted : view.Accounted store) {id : JobId}
    (hknown : view.known store id) (hterminal : ¬ view.terminal store id) :
    view.pending store id ∨
      ∃ message ∈ view.queues store, message.body = some id ∧ message.deleted = false := by
  rcases haccounted.notified id hknown with hpending | ⟨message, hmem, hbody⟩
  · exact .inl hpending
  · right
    refine ⟨message, hmem, hbody, ?_⟩
    cases hdeleted : message.deleted with
    | false => rfl
    | true => exact (hterminal (haccounted.deleted message hmem hdeleted id hbody)).elim

/-! ## Guards and answers -/

variable (view)

/-- When a party may issue a request. -/
def Guard (store : σ) : QueueRequest Options Solution → Prop
  | .repository _ (.markNotificationDelivered id) => view.Published store id
  | .sendMessage _ id _ => view.known store id
  | .deleteMessage _ receiptHandle =>
      ∃ body, view.Carries store receiptHandle body ∧ ∀ id, body = some id → view.terminal store id
  | _ => True

/-- What the answer to a request tells the party. -/
def Tells (store : σ) : (r : QueueRequest Options Solution) → r.Response → σ → Prop
  | .repository _ (.enqueue _), reply, after => ∀ job, reply = .ok job → view.known after job.id
  | .repository caller (.get id), reply, after =>
      (∀ job, reply = .ok (some job) → job.id = id ∧ view.known after id ∧
        (job.status.terminal = true → view.terminal after id)) ∧
      (reply = .ok none → view.known store id →
        caller ≠ .dispatcher ∧ (caller = .worker → view.terminal after id))
  | .repository _ (.claim (some id) _), reply, _ =>
      ∀ lease, reply = .ok (some lease) → lease.jobId = id
  | .repository _ (.complete id _ _ _), reply, after => reply = .ok true → view.terminal after id
  | .repository _ (.pendingNotifications _), reply, after =>
      ∀ ids, reply = .ok ids → ∀ id ∈ ids, view.known after id
  | .sendMessage _ id _, reply, after => reply = .ok () → view.Published after id
  | .receiveMessage _, reply, after =>
      ∀ delivery, reply = .ok (some delivery) → ∀ receiptHandle body,
        delivery.receiptHandle = some receiptHandle → delivery.body = some body →
          view.Carries after receiptHandle body ∧ ∀ id, body = some id → view.known after id
  | _, _, _ => True

variable {view}

theorem Guard.later {r : QueueRequest Options Solution} (hguard : view.Guard before r)
    (hevolves : view.Evolves before after) : view.Guard after r := by
  unfold Guard at hguard ⊢
  split at hguard
  · exact hevolves.published hguard
  · exact hevolves.known _ hguard
  · obtain ⟨body, hcarries, hterminal⟩ := hguard
    exact ⟨body, hevolves.carries hcarries, fun id hbody => hevolves.terminal id (hterminal id hbody)⟩
  · trivial

theorem Tells.later {r : QueueRequest Options Solution} {reply : r.Response} {later : σ}
    (htells : view.Tells store r reply after) (hevolves : view.Evolves after later) :
    view.Tells store r reply later := by
  unfold Tells at htells ⊢
  split at htells
  · exact fun job hjob => hevolves.known _ (htells job hjob)
  · refine ⟨?_, ?_⟩
    · intro job hjob
      obtain ⟨hid, hknown, hterminal⟩ := htells.1 job hjob
      exact ⟨hid, hevolves.known _ hknown, fun h => hevolves.terminal _ (hterminal h)⟩
    · intro hnone hknown
      obtain ⟨hcaller, hterminal⟩ := htells.2 hnone hknown
      exact ⟨hcaller, fun h => hevolves.terminal _ (hterminal h)⟩
  · exact htells
  · exact fun htrue => hevolves.terminal _ (htells htrue)
  · exact fun ids hids id hmem => hevolves.known _ (htells ids hids id hmem)
  · exact fun hok => hevolves.published (htells hok)
  · intro delivery hdelivery receiptHandle body hreceipt hbody
    obtain ⟨hcarries, hknown⟩ := htells delivery hdelivery receiptHandle body hreceipt hbody
    exact ⟨hevolves.carries hcarries, fun id h => hevolves.known _ (hknown id h)⟩
  · trivial

/-- An answer tells no less from an earlier store. -/
theorem Tells.earlier {r : QueueRequest Options Solution} {reply : r.Response} {earlier : σ}
    (htells : view.Tells store r reply after) (hevolves : view.Evolves earlier store) :
    view.Tells earlier r reply after := by
  unfold Tells at htells ⊢
  split at htells
  · exact htells
  · exact ⟨htells.1, fun hnone hknown => htells.2 hnone (hevolves.known _ hknown)⟩
  all_goals exact htells

/-- A failed repository call tells nothing. -/
theorem Tells.error {caller : Caller} (call : RepositoryCall Options Solution) (cause : Fault) :
    view.Tells store (.repository caller call) (.error cause) after := by
  cases call with
  | enqueue job =>
      intro stored h
      cases h
  | get id =>
      refine ⟨?_, ?_⟩
      · intro job h
        cases h
      · intro h
        cases h
  | claim requestedJobId leaseSeconds =>
      cases requestedJobId with
      | none => trivial
      | some id =>
          intro lease h
          cases h
  | complete id leaseToken solution error =>
      intro h
      cases h
  | pendingNotifications limit =>
      intro ids h
      cases h
  | _ => trivial

/-! ## Requests to the queues -/

private theorem getElem?_delete {queues : SqsQueues} {queue : SqsQueueClass} {receiptHandle : ℕ}
    {position : ℕ} {later : SqsMessage}
    (hlater : (queues.delete queue receiptHandle)[position]? = some later) :
    ∃ message, queues[position]? = some message ∧ later.body = message.body ∧
      later.queue = message.queue ∧ (message.deleted = true → later.deleted = true) ∧
        (later.deleted = true → message.deleted = true ∨ position = receiptHandle) := by
  rw [SqsQueues.delete, List.getElem?_modify] at hlater
  obtain ⟨message, hmessage, heq⟩ := Option.map_eq_some_iff.mp hlater
  refine ⟨message, hmessage, ?_⟩
  by_cases hposition : receiptHandle = position
  · rw [if_pos hposition] at heq
    by_cases hqueue : message.queue = queue
    · rw [if_pos hqueue] at heq
      rw [← heq]
      exact ⟨rfl, rfl, fun _ => rfl, fun _ => .inr hposition.symm⟩
    · rw [if_neg hqueue] at heq
      rw [← heq]
      exact ⟨rfl, rfl, id, .inl⟩
  · rw [if_neg hposition] at heq
    rw [← heq]
    exact ⟨rfl, rfl, id, .inl⟩

/-- What a queue request leaves, if the rest of the store stays as it is. -/
structure SameJobs (view : QueueView σ) (before after : σ) : Prop where
  known : ∀ id, view.known after id ↔ view.known before id
  terminal : ∀ id, view.terminal after id ↔ view.terminal before id
  pending : ∀ id, view.pending after id ↔ view.pending before id

theorem SameJobs.evolves_of_append (hsame : view.SameJobs before after) {more : SqsQueues}
    (hqueues : view.queues after = view.queues before ++ more) : view.Evolves before after where
  known := fun id h => (hsame.known id).mpr h
  terminal := fun id h => (hsame.terminal id).mpr h
  messages := by
    intro position message hmessage
    refine ⟨message, ?_, rfl, rfl, id⟩
    rw [hqueues, List.getElem?_append_left (List.getElem?_eq_some_iff.mp hmessage).1]
    exact hmessage

/-- Sending a message about an existing job, or about none, loses no job. -/
theorem Accounted.sent (haccounted : view.Accounted before) (hsame : view.SameJobs before after)
    {queue : SqsQueueClass} {body : Option JobId}
    (hqueues : view.queues after = (view.queues before).send queue body)
    (hbody : ∀ id, body = some id → view.known before id) : view.Accounted after := by
  have hevolves : view.Evolves before after := hsame.evolves_of_append hqueues
  refine ⟨?_, ?_, ?_⟩
  · intro message hmem id hid
    rw [hqueues, SqsQueues.send, List.mem_append, List.mem_singleton] at hmem
    rcases hmem with hold | rfl
    · exact hevolves.known id (haccounted.bodies message hold id hid)
    · exact hevolves.known id (hbody id hid)
  · intro message hmem hdeleted id hid
    rw [hqueues, SqsQueues.send, List.mem_append, List.mem_singleton] at hmem
    rcases hmem with hold | rfl
    · exact hevolves.terminal id (haccounted.deleted message hold hdeleted id hid)
    · cases hdeleted
  · intro id hknown
    rcases haccounted.notified id ((hsame.known id).mp hknown) with hpending | hpublished
    · exact .inl ((hsame.pending id).mpr hpending)
    · exact .inr (hevolves.published hpublished)

theorem SameJobs.evolves_of_delete (hsame : view.SameJobs before after) {queue : SqsQueueClass}
    {receiptHandle : ℕ}
    (hqueues : view.queues after = (view.queues before).delete queue receiptHandle) :
    view.Evolves before after where
  known := fun id h => (hsame.known id).mpr h
  terminal := fun id h => (hsame.terminal id).mpr h
  messages := by
    intro position message hmessage
    have hlength : position < ((view.queues before).delete queue receiptHandle).length := by
      rw [SqsQueues.delete, List.length_modify]
      exact (List.getElem?_eq_some_iff.mp hmessage).1
    obtain ⟨old, hold, hbody, hsameQueue, hdeleted, _⟩ :=
      getElem?_delete (List.getElem?_eq_getElem hlength)
    rw [hmessage] at hold
    cases hold
    refine ⟨_, ?_, hsameQueue, hbody, hdeleted⟩
    rw [hqueues]
    exact List.getElem?_eq_getElem hlength

/-- Deleting the message of a finished job loses no job. -/
theorem Accounted.deletedMessage (haccounted : view.Accounted before)
    (hsame : view.SameJobs before after) {queue : SqsQueueClass} {receiptHandle : ℕ}
    (hqueues : view.queues after = (view.queues before).delete queue receiptHandle)
    {body : Option JobId} (hcarries : view.Carries before receiptHandle body)
    (hterminal : ∀ id, body = some id → view.terminal before id) : view.Accounted after := by
  have hevolves : view.Evolves before after := hsame.evolves_of_delete hqueues
  have hold : ∀ message ∈ view.queues after, ∃ position old,
      (view.queues before)[position]? = some old ∧ message.body = old.body ∧
        (message.deleted = true → old.deleted = true ∨ position = receiptHandle) := by
    intro message hmem
    rw [hqueues] at hmem
    obtain ⟨position, hposition⟩ := List.getElem?_of_mem hmem
    obtain ⟨old, hfound, hbody, _, _, hdeleted⟩ := getElem?_delete hposition
    exact ⟨position, old, hfound, hbody, hdeleted⟩
  refine ⟨?_, ?_, ?_⟩
  · intro message hmem id hid
    obtain ⟨position, old, hfound, hbody, _⟩ := hold message hmem
    exact hevolves.known id
      (haccounted.bodies old (List.mem_of_getElem? hfound) id (hbody.symm.trans hid))
  · intro message hmem hdeleted id hid
    obtain ⟨position, old, hfound, hbody, hwhy⟩ := hold message hmem
    rcases hwhy hdeleted with hbefore | rfl
    · exact hevolves.terminal id (haccounted.deleted old (List.mem_of_getElem? hfound) hbefore id
        (hbody.symm.trans hid))
    · obtain ⟨carried, hcarried, hcarriedBody⟩ := hcarries
      rw [hfound] at hcarried
      cases hcarried
      exact hevolves.terminal id (hterminal id (hcarriedBody.symm.trans (hbody.symm.trans hid)))
  · intro id hknown
    rcases haccounted.notified id ((hsame.known id).mp hknown) with hpending | hpublished
    · exact .inl ((hsame.pending id).mpr hpending)
    · exact .inr (hevolves.published hpublished)

/-- Nothing that matters has changed. -/
theorem Accounted.kept (haccounted : view.Accounted before) (hsame : view.SameJobs before after)
    (hqueues : view.queues after = view.queues before) :
    view.Accounted after ∧ view.Evolves before after := by
  have happend : view.queues after = view.queues before ++ [] := by rw [hqueues, List.append_nil]
  have hevolves : view.Evolves before after := hsame.evolves_of_append happend
  refine ⟨⟨?_, ?_, ?_⟩, hevolves⟩
  · intro message hmem id hid
    exact hevolves.known id (haccounted.bodies message (hqueues ▸ hmem) id hid)
  · intro message hmem hdeleted id hid
    exact hevolves.terminal id (haccounted.deleted message (hqueues ▸ hmem) hdeleted id hid)
  · intro id hknown
    rcases haccounted.notified id ((hsame.known id).mp hknown) with hpending | hpublished
    · exact .inl ((hsame.pending id).mpr hpending)
    · exact .inr (hevolves.published hpublished)

/-- A guarded request to the queues loses no job and tells what it should. -/
theorem Accounted.served (haccounted : view.Accounted before) (hsame : view.SameJobs before after)
    {r : QueueRequest Options Solution} {reply : r.Response}
    (hrepository : ∀ caller call, r ≠ .repository caller call) (hguard : view.Guard before r)
    (hserves : (view.queues before).Serves r reply (view.queues after)) :
    view.Accounted after ∧ view.Evolves before after ∧ view.Tells before r reply after := by
  cases r with
  | repository caller call => exact (hrepository caller call rfl).elim
  | utcNow =>
      obtain ⟨hafter, hevolves⟩ := haccounted.kept hsame hserves
      exact ⟨hafter, hevolves, trivial⟩
  | changeMessageVisibility queue receiptHandle =>
      obtain ⟨hafter, hevolves⟩ := haccounted.kept hsame hserves
      exact ⟨hafter, hevolves, trivial⟩
  | receiveMessage queue =>
      obtain ⟨hqueues, hdelivers⟩ := hserves
      obtain ⟨hafter, hevolves⟩ := haccounted.kept hsame hqueues
      refine ⟨hafter, hevolves, ?_⟩
      intro delivery hreply receiptHandle body hreceipt hbody
      obtain ⟨position, message, hmessage, _, _, hdeliveredBody, hdeliveredReceipt⟩ :=
        hdelivers delivery hreply
      rw [hdeliveredReceipt receiptHandle hreceipt, hdeliveredBody body hbody]
      refine ⟨⟨message, hqueues ▸ hmessage, rfl⟩, ?_⟩
      intro id hid
      exact hevolves.known id (haccounted.bodies message (List.mem_of_getElem? hmessage) id hid)
  | sendMessage queue id messageGroupId =>
      rcases hserves with hqueues | ⟨hfailed, hqueues⟩
      · refine ⟨haccounted.sent hsame hqueues (by rintro _ ⟨rfl⟩; exact hguard),
          hsame.evolves_of_append hqueues, ?_⟩
        intro _
        refine ⟨⟨queue, some id, false⟩, ?_, rfl⟩
        rw [hqueues]
        exact List.mem_append_right _ (List.mem_singleton_self _)
      · obtain ⟨hafter, hevolves⟩ := haccounted.kept hsame hqueues
        exact ⟨hafter, hevolves, fun hok => (hfailed hok).elim⟩
  | deleteMessage queue receiptHandle =>
      obtain ⟨body, hcarries, hterminal⟩ := hguard
      rcases hserves with hqueues | ⟨_, hqueues⟩
      · exact ⟨haccounted.deletedMessage hsame hqueues hcarries hterminal,
          hsame.evolves_of_delete hqueues, trivial⟩
      · obtain ⟨hafter, hevolves⟩ := haccounted.kept hsame hqueues
        exact ⟨hafter, hevolves, trivial⟩

/-! ## The contract -/

/-- The contract of every party over a store with this invariant. -/
def contract (view : QueueView σ) (invariant : σ → Prop) :
    Contract (QueueRequest Options Solution) QueueRequest.Response σ where
  invariant := invariant
  answers := fun store r reply after =>
    invariant after ∧ view.Evolves store after ∧ view.Tells store r reply after
  rely := view.Evolves
  guarantee := fun _ _ => True
  guard := view.Guard
  rely_refl := Evolves.refl
  rely_trans := fun _ _ _ => Evolves.trans

end QueueView

/-! ## The parties keep the contract -/

/-- From this store on, the program issues only guarded requests. -/
def Careful (view : QueueView σ) (invariant : σ → Prop) {α : Type}
    (program : QueueProgram Options Solution α) (store : σ) : Prop :=
  program.Obeys (view.contract invariant) (fun _ _ => True) store

namespace Careful

variable {view : QueueView σ} {invariant : σ → Prop} {α : Type} {store : σ}

theorem done (value : α) :
    Careful view invariant (.done value : QueueProgram Options Solution α) store :=
  fun _ _ _ => trivial

theorem fault (cause : Fault) :
    Careful view invariant (.fault cause : QueueProgram Options Solution α) store :=
  trivial

/-- A guarded request, continued from whatever its answer tells. -/
theorem request {r : QueueRequest Options Solution}
    {next : r.Response → QueueProgram Options Solution α} (hguard : view.Guard store r)
    (hnext : ∀ before reply after, view.Evolves store before → view.Evolves before after →
      view.Tells before r reply after → Careful view invariant (next reply) after) :
    Careful view invariant (.request r next) store := by
  intro later hrely _
  refine ⟨hguard.later hrely, ?_⟩
  rintro reply after ⟨hafter, hevolves, htells⟩
  exact ⟨hafter, trivial, hnext later reply after hrely hevolves htells⟩

theorem ofExcept {value : Except Fault β} {next : β → QueueProgram Options Solution α}
    (hnext : ∀ result, value = .ok result → Careful view invariant (next result) store) :
    Careful view invariant (Program.ofExcept value >>= next) store := by
  cases value with
  | error cause => exact fault cause
  | ok result => exact hnext result rfl

/-! ### Publishing -/

/-- Publishing an existing job either fails or leaves it published. -/
theorem publish {transport : SqsTransport} {job : JobRecord Options Solution}
    {next : Except Fault Unit → QueueProgram Options Solution α}
    (hknown : view.known store job.id)
    (hnext : ∀ reply after, view.Evolves store after →
      (reply = .ok () → view.Published after job.id) →
        Careful view invariant (next reply) after) :
    Careful view invariant ((transport.publish job).attempt >>= next) store := by
  cases hgroup : fairQueueGroupId job.owner with
  | error cause =>
      have hfault : transport.publish job = (.fault cause : QueueProgram Options Solution Unit) := by
        simp [SqsTransport.publish, Program.ofExcept, hgroup]
      rw [hfault]
      exact hnext (.error cause) store (.refl store) nofun
  | ok messageGroupId =>
      have hsend : transport.publish job =
          (Queue.sendMessage (transport.queueUrl job) job.id messageGroupId >>=
            Program.ofExcept : QueueProgram Options Solution Unit) := by
        rw [SqsTransport.publish, hgroup]
        rfl
      rw [hsend]
      refine request hknown ?_
      rintro before (cause | ⟨⟩) after hbefore hafter htells
      · exact hnext (.error cause) after (hbefore.trans hafter) nofun
      · exact hnext (.ok ()) after (hbefore.trans hafter) htells

theorem publishThenMark {caller : Caller} {transport : SqsTransport} {id : JobId}
    {job : JobRecord Options Solution} {next : Unit → QueueProgram Options Solution α}
    (hid : job.id = id) (hknown : view.known store id)
    (hnext : ∀ after, view.Evolves store after → Careful view invariant (next ()) after) :
    Careful view invariant (SeizaServer.publishThenMark caller transport id job >>= next)
      store := by
  subst hid
  rw [SeizaServer.publishThenMark, bind_assoc]
  refine publish hknown ?_
  rintro (cause | ⟨⟩) after hafter hpublished
  · exact hnext after hafter
  · refine request (r := .repository caller (.markNotificationDelivered job.id))
      (hpublished rfl) ?_
    intro before _ later hbefore hlater _
    exact hnext later ((hafter.trans hbefore).trans hlater)

theorem enqueueStored (parseStr : String → Option JobId) (transport : SqsTransport)
    (upload : StoredUpload Options) :
    Careful view invariant (SeizaServer.enqueueStored parseStr transport upload :
      QueueProgram Options Solution (JobRecord Options Solution)) store := by
  refine request (r := .repository .api (.findByObjectKey upload.objectKey)) trivial ?_
  intro _ found first _ _ _
  refine ofExcept ?_
  rintro (_ | existing) _
  · refine request (r := .utcNow) trivial ?_
    intro _ createdAt second _ _ _
    cases jobIdFromObjectKey parseStr upload.objectKey with
    | none => exact fault _
    | some jobId =>
        refine request (r := .repository .api (.enqueue (upload.job jobId createdAt))) trivial ?_
        intro _ stored third _ _ htells
        refine ofExcept ?_
        intro job hstored
        exact publishThenMark rfl (htells job hstored) fun _ _ => done job
  · exact done existing

/-! ### The dispatcher -/

theorem dispatchNotification {transport : SqsTransport} {id : JobId}
    {next : Unit → QueueProgram Options Solution α} (hknown : view.known store id)
    (hnext : ∀ after, view.Evolves store after → Careful view invariant (next ()) after) :
    Careful view invariant (SeizaServer.dispatchNotification transport id >>= next) store := by
  refine request (r := .repository .dispatcher (.get id)) trivial ?_
  rintro before (cause | (_ | job)) after hbefore hafter ⟨hjob, hmissing⟩
  · exact hnext after (hbefore.trans hafter)
  · exact ((hmissing rfl (hbefore.known id hknown)).1 rfl).elim
  · obtain ⟨hid, hknown', _⟩ := hjob job rfl
    exact publishThenMark hid hknown' fun later hlater =>
      hnext later ((hbefore.trans hafter).trans hlater)

theorem dispatchEach {transport : SqsTransport} {ids : List JobId}
    {next : Unit → QueueProgram Options Solution α}
    (hknown : ∀ id ∈ ids, view.known store id)
    (hnext : ∀ after, Careful view invariant (next ()) after) :
    Careful view invariant (SeizaServer.dispatchEach transport ids >>= next) store := by
  induction ids generalizing store with
  | nil => exact hnext store
  | cons id rest ih =>
      rw [SeizaServer.dispatchEach, bind_assoc]
      refine dispatchNotification (hknown id List.mem_cons_self) ?_
      intro after hafter
      exact ih fun other hmem => hafter.known other (hknown other (List.mem_cons_of_mem _ hmem))

theorem dispatchOutbox (transport : SqsTransport) (rounds : ℕ) :
    Careful view invariant (SeizaServer.dispatchOutbox transport rounds :
      QueueProgram Options Solution Unit) store := by
  induction rounds generalizing store with
  | zero => exact done ()
  | succ rounds ih =>
      refine request (r := .repository .dispatcher (.pendingNotifications 100)) trivial ?_
      rintro before (cause | ids) after _ _ htells
      · exact ih
      · exact dispatchEach (htells ids rfl) fun _ => ih

/-! ### The workers -/

/-- What a received message carries. -/
def Received (view : QueueView σ) (message : SqsDelivery) (store : σ) : Prop :=
  ∀ receiptHandle body, message.receiptHandle = some receiptHandle → message.body = some body →
    view.Carries store receiptHandle body ∧ ∀ id, body = some id → view.known store id

theorem receiveFallback {fallback : SqsQueueClass} {succeeded : Bool}
    {next : Option (SqsQueueClass × SqsDelivery) → QueueProgram Options Solution α}
    (hnext : ∀ received after, (∀ queue message, received = some (queue, message) →
      Received view message after) → Careful view invariant (next received) after) :
    Careful view invariant (SeizaServer.receiveFallback fallback succeeded >>= next) store := by
  refine request (r := .receiveMessage fallback) trivial ?_
  rintro _ (cause | message) after _ _ htells
  · cases succeeded with
    | true => exact hnext none after nofun
    | false => exact fault _
  · refine hnext _ after ?_
    intro queue delivery hdelivery
    obtain ⟨_, hmessage, heq⟩ := Option.map_eq_some_iff.mp hdelivery
    cases heq
    exact htells delivery (congrArg Except.ok hmessage)

theorem receiveWeighted {preferred : SqsQueueClass}
    {next : Option (SqsQueueClass × SqsDelivery) → QueueProgram Options Solution α}
    (hnext : ∀ received after, (∀ queue message, received = some (queue, message) →
      Received view message after) → Careful view invariant (next received) after) :
    Careful view invariant (SeizaServer.receiveWeighted preferred >>= next) store := by
  refine request (r := .receiveMessage preferred) trivial ?_
  rintro _ (cause | (_ | message)) after _ _ htells
  · exact receiveFallback hnext
  · exact receiveFallback hnext
  · refine hnext (some (preferred, message)) after ?_
    rintro _ _ ⟨rfl⟩
    exact htells message rfl

theorem receiveNext {priorityQueue : Bool} {schedule : SqsQueueSchedule}
    {next : Option (SqsQueueClass × SqsDelivery) × SqsQueueSchedule →
      QueueProgram Options Solution α}
    (hnext : ∀ received after, (∀ queue message, received.1 = some (queue, message) →
      Received view message after) → Careful view invariant (next received) after) :
    Careful view invariant (SeizaServer.receiveNext priorityQueue schedule >>= next) store := by
  unfold SeizaServer.receiveNext
  cases priorityQueue with
  | true =>
      rw [if_pos rfl]
      split
      next => exact fault _
      next preferred schedule hschedule =>
        rw [bind_assoc]
        refine receiveWeighted ?_
        intro received after hreceived
        exact hnext (received, schedule) after hreceived
  | false =>
      refine request (r := .receiveMessage .normal) trivial ?_
      rintro _ (cause | message) after _ _ htells
      · exact fault cause
      · refine hnext (message.map fun message => (.normal, message), schedule) after ?_
        intro queue delivery hdelivery
        obtain ⟨_, hmessage, heq⟩ := Option.map_eq_some_iff.mp hdelivery
        cases heq
        exact htells delivery (congrArg Except.ok hmessage)

theorem heartbeatEach {leaseSeconds : UInt64} {lease : JobLease Options} {queue : SqsQueueClass}
    {receiptHandle ticks : ℕ} {next : Unit → QueueProgram Options Solution α}
    (hnext : ∀ after, view.Evolves store after → Careful view invariant (next ()) after) :
    Careful view invariant
      (SeizaServer.heartbeatEach leaseSeconds lease queue receiptHandle ticks >>= next) store := by
  induction ticks generalizing store with
  | zero => exact hnext store (.refl store)
  | succ ticks ih =>
      refine request (r := .repository .worker (.heartbeat lease.jobId lease.leaseToken
        leaseSeconds)) trivial ?_
      rintro before (cause | (_ | _)) after hbefore hafter _
      · exact fault cause
      · exact fault _
      · refine request (r := .changeMessageVisibility queue receiptHandle) trivial ?_
        rintro before' (cause | ⟨⟩) after' hbefore' hafter' _
        · exact fault cause
        · exact ih fun later hlater => hnext later
            ((((hbefore.trans hafter).trans hbefore').trans hafter').trans hlater)

/-- A lease whose completion was accepted is one of a finished job. -/
theorem processLease {leaseSeconds : UInt64} {lease : JobLease Options} {queue : SqsQueueClass}
    {receiptHandle : ℕ} {run : SolverRun Solution} {next : Bool → QueueProgram Options Solution α}
    (hnext : ∀ handled after, view.Evolves store after →
      (handled = true → view.terminal after lease.jobId) →
        Careful view invariant (next handled) after) :
    Careful view invariant
      (SeizaServer.processLease leaseSeconds lease queue receiptHandle run >>= next) store := by
  refine request (r := .repository .worker (.inputKey lease.jobId lease.leaseToken)) trivial ?_
  rintro before (cause | (_ | objectKey)) first hbefore hfirst _
  · exact fault cause
  · exact fault _
  · change Careful view invariant ((SeizaServer.heartbeatEach leaseSeconds lease queue
      receiptHandle run.heartbeats >>= _) >>= next) first
    rw [bind_assoc]
    refine heartbeatEach ?_
    intro second hsecond
    refine request (r := .repository .worker (.complete lease.jobId lease.leaseToken
      run.completion.1 run.completion.2)) trivial ?_
    rintro before' (cause | accepted) last hbefore' hlast htells
    · exact fault cause
    · refine hnext accepted last
        ((((hbefore.trans hfirst).trans hsecond).trans hbefore').trans hlast) ?_
      intro haccepted
      exact htells (congrArg Except.ok haccepted)

/-- A job reported as finished is finished, if it exists at all. -/
theorem jobIsTerminal {id : JobId} {next : Bool → QueueProgram Options Solution α}
    (hknown : view.known store id)
    (hnext : ∀ handled after, view.Evolves store after →
      (handled = true → view.terminal after id) → Careful view invariant (next handled) after) :
    Careful view invariant (SeizaServer.jobIsTerminal id >>= next) store := by
  refine request (r := .repository .worker (.get id)) trivial ?_
  rintro before (cause | (_ | job)) after hbefore hafter ⟨hjob, hmissing⟩
  · exact fault cause
  · exact hnext true after (hbefore.trans hafter) fun _ =>
      (hmissing rfl (hbefore.known id hknown)).2 rfl
  · exact hnext _ after (hbefore.trans hafter) fun hterminal =>
      (hjob job rfl).2.2 hterminal

theorem deleteMessage {queue : SqsQueueClass} {receiptHandle : ℕ} {body : Option JobId}
    {next : Unit → QueueProgram Options Solution α}
    (hcarries : view.Carries store receiptHandle body)
    (hterminal : ∀ id, body = some id → view.terminal store id)
    (hnext : ∀ after, Careful view invariant (next ()) after) :
    Careful view invariant (SeizaServer.deleteMessage queue receiptHandle >>= next) store := by
  refine request (r := .deleteMessage queue receiptHandle) ⟨body, hcarries, hterminal⟩ ?_
  rintro before (cause | ⟨⟩) after _ _ _
  · exact fault cause
  · exact hnext after

/-- A message is deleted only for a finished job, or if it names none. -/
theorem handleMessage {leaseSeconds : UInt64} {queue : SqsQueueClass} {message : SqsDelivery}
    {run : SolverRun Solution} {next : Unit → QueueProgram Options Solution α}
    (hreceived : Received view message store)
    (hnext : ∀ after, Careful view invariant (next ()) after) :
    Careful view invariant (SeizaServer.handleMessage leaseSeconds queue message run >>= next)
      store := by
  obtain ⟨body, receipt⟩ := message
  rcases receipt with _ | receiptHandle
  · rcases body with _ | _ | id <;> exact hnext store
  · rcases body with _ | _ | id
    · exact hnext store
    · exact deleteMessage (hreceived receiptHandle none rfl rfl).1 nofun hnext
    · obtain ⟨hcarries, hknown⟩ := hreceived receiptHandle (some id) rfl rfl
      have hacknowledge : ∀ handled after, view.Evolves store after →
          (handled = true → view.terminal after id) →
            Careful view invariant
              ((if handled then SeizaServer.deleteMessage queue receiptHandle else pure ()) >>=
                next) after := by
        intro handled after hafter hterminal
        cases handled with
        | false => exact hnext after
        | true =>
            refine deleteMessage (hafter.carries hcarries) ?_ hnext
            rintro _ ⟨rfl⟩
            exact hterminal rfl
      refine request (r := .repository .worker (.claim (some id) leaseSeconds)) trivial ?_
      rintro before (cause | (_ | lease)) after hbefore hafter htells
      · exact fault cause
      · change Careful view invariant ((SeizaServer.jobIsTerminal id >>= _) >>= next) after
        rw [bind_assoc]
        refine jobIsTerminal ((hbefore.trans hafter).known id (hknown id rfl)) ?_
        intro handled later hlater hterminal
        exact hacknowledge handled later ((hbefore.trans hafter).trans hlater) hterminal
      · change Careful view invariant ((SeizaServer.processLease leaseSeconds lease queue
          receiptHandle run >>= _) >>= next) after
        rw [bind_assoc]
        refine processLease ?_
        intro handled later hlater hterminal
        rw [htells lease rfl] at hterminal
        exact hacknowledge handled later ((hbefore.trans hafter).trans hlater) hterminal

theorem runSqsWorker (leaseSeconds : UInt64) (priorityQueue : Bool) (schedule : SqsQueueSchedule)
    (runs : List (SolverRun Solution)) :
    Careful view invariant (SeizaServer.runSqsWorker leaseSeconds priorityQueue schedule runs :
      QueueProgram Options Solution Unit) store := by
  induction runs generalizing store schedule with
  | nil => exact done ()
  | cons run rest ih =>
      refine receiveNext ?_
      rintro ⟨_ | ⟨queue, message⟩, following⟩ after hreceived
      · exact ih following
      · exact handleMessage (hreceived queue message rfl) fun _ => ih following

/-- Every party issues only guarded requests. -/
theorem program (config : QueueConfig) {call : QueueCall Options Solution}
    (hadmitted : call.Admitted) : Careful view invariant (call.program config) store := by
  cases call with
  | enqueueStored upload => exact enqueueStored config.parseStr config.transport upload
  | dispatchOutbox rounds => exact dispatchOutbox config.transport rounds
  | runSqsWorker schedule runs => exact runSqsWorker _ _ schedule runs
  | client call =>
      refine request (r := .repository .api call) ?_ fun _ reply _ _ _ _ => done reply
      cases call with
      | markNotificationDelivered id => exact hadmitted.elim
      | _ => trivial

end Careful

end SeizaServer
