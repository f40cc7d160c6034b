import SeizaServer.AuthService
import SeizaServer.DynamoIdentityRepository

/-!
# The sign-in service over the DynamoDB identity store

The programs of the service with every repository call carried out by its
requests to the table, one request at a time.  Besides the table and the clock
the world remembers who drew which identifier and which session was first put
under which key.
-/

namespace SeizaServer

open Interaction Transition TransactionalStore

/-! ## Programs -/

/-- What the service asks besides the repository, and what the repository asks
of the table. -/
inductive BackendRequest where
  | service (r : AuthRequest)
  | store (r : IdentityRequest)

@[reducible] def BackendRequest.Response : BackendRequest → Type
  | .service r => r.Response
  | .store r => StoreRequest.Response Fault r

abbrev BackendProgram := Program BackendRequest BackendRequest.Response AuthError

/-- How a request of the service is carried out. -/
def backendHandler (lookupDigest : String → String) : (r : AuthRequest) → BackendProgram r.Response
  | .utcNow => .request (.service .utcNow) .done
  | .nowV7 => .request (.service .nowV7) .done
  | .randomSecret => .request (.service .randomSecret) .done
  | .randomCode => .request (.service .randomCode) .done
  | .checkEmailSend source email => .request (.service (.checkEmailSend source email)) .done
  | .sendSignIn email => .request (.service (.sendSignIn email)) .done
  | .repository call =>
      ((DynamoIdentity.program lookupDigest call).relay BackendRequest.store
        fun _ reply => reply).outcome

/-! ## The world -/

structure DynamoWorld where
  table : IdentityTable
  clock : Time
  /-- The identifiers drawn so far, with the process that drew them. -/
  drawn : List (ℕ × Uuid)
  /-- The session that was first put under each key. -/
  minted : AccountId → SessionId → Option AuthSession

namespace DynamoWorld

/-- The world after the table has changed. -/
def written (world : DynamoWorld) (table : IdentityTable) : DynamoWorld :=
  { world with
    table := table
    minted := fun accountId sessionId =>
      (world.minted accountId sessionId).or (table (.session accountId sessionId)) }

def Serves (pid : ℕ) (world : DynamoWorld) :
    (r : BackendRequest) → r.Response → DynamoWorld → Prop
  | .service .utcNow, reply, after => reply = world.clock ∧ after = world
  | .service .nowV7, reply, after => (∀ entry ∈ world.drawn, entry.2 ≠ reply) ∧
      after = { world with drawn := (pid, reply) :: world.drawn }
  | .service (.repository _), _, _ => False
  | .service _, _, after => after = world
  | .store r, reply, after => ∃ table, TransactionalStore.Serves world.table r reply table ∧
      after = world.written table

/-- Time passes, the time to live of items runs out, and accounts are disabled
and enabled. -/
inductive Drifts : DynamoWorld → DynamoWorld → Prop where
  | tick {world : DynamoWorld} (clock : Time) (hclock : world.clock ≤ clock) :
      Drifts world { world with clock := clock }
  | expire {world : DynamoWorld} (table : IdentityTable)
      (htable : ∀ key, table key = world.table key ∨ table key = none) :
      Drifts world { world with table := table }
  | flip {world : DynamoWorld} (accountId : AccountId) (status : AccountStatus) :
      Drifts world { world with
        table := Function.update world.table (.profile accountId)
          ((world.table (.profile accountId)).map fun account => { account with status := status }) }

/-- A table without sessions before any call. -/
def initial (table : IdentityTable) (clock : Time) : DynamoWorld :=
  ⟨fun key => match key with
    | .session _ _ => none
    | key => table key, clock, [], fun _ _ => none⟩

end DynamoWorld

/-- The service of one deployment on this backend, for some of the calls. -/
structure DynamoScope where
  config : AuthConfig
  lookupDigest : String → String
  admits : AuthCall → Prop

def dynamoIdentitySystem (scope : DynamoScope) :
    System AuthCall BackendRequest BackendRequest.Response AuthError AuthCall.Result DynamoWorld where
  body := fun call => (call.program scope.config).expand (backendHandler scope.lookupDigest)
  admits := fun _ _ call => scope.admits call
  answers := DynamoWorld.Serves
  halts := fun _ before after => after = before
  environment := DynamoWorld.Drifts

/-! ## What a process has read -/

/-- A read that the service saw is a read of the table. -/
theorem mem_of_repository_get {lookupDigest : String → String} {call : IdentityCall}
    {key : IdentityKey} {make : Option key.Item → call.Result}
    (hprogram : DynamoIdentity.program lookupDigest call =
      DynamoIdentity.getItem key >>= fun found => .done (make found))
    {part : List ((r : BackendRequest) × r.Response)} {value : call.Result}
    (hreplays : (backendHandler lookupDigest (.repository call)).Replays part (.done (.ok value))) :
    ∃ found, make found = value ∧
      (⟨.store (.get key), .ok found⟩ : (r : BackendRequest) × r.Response) ∈ part := by
  have houter : ((DynamoIdentity.program lookupDigest call).relay BackendRequest.store
      (fun _ reply => reply)).Replays part (.done value) := by
    change (((DynamoIdentity.program lookupDigest call).relay BackendRequest.store
      (fun _ reply => reply)).outcome : BackendProgram _).Replays part _ at hreplays
    exact hreplays.of_outcome
  obtain ⟨inner, hinner, hentries⟩ := Program.Replays.of_relay houter
  rw [hprogram] at hinner
  obtain ⟨reply, rest, hanswers, hrest⟩ := Program.Replays.of_request hinner
  cases reply with
  | error cause => exact hrest.of_fault.elim
  | ok found =>
      obtain ⟨_, hvalue⟩ := hrest.of_done
      refine ⟨found, hvalue, ?_⟩
      obtain ⟨answer, hanswer, hmem⟩ := hentries ⟨.get key, .ok found⟩ (by
        rw [hanswers]
        exact List.mem_cons_self)
      cases hanswer
      exact hmem

theorem mem_of_apiKey {lookupDigest : String → String} {accountId : AccountId} {keyId : ApiKeyId}
    {part : List ((r : BackendRequest) × r.Response)} {found : Option ApiKey}
    (hreplays : (backendHandler lookupDigest (.repository (.apiKey accountId keyId))).Replays part
      (.done (.ok found))) :
    (⟨.store (.get (.apiKey accountId keyId)), .ok found⟩ : (r : BackendRequest) × r.Response) ∈
      part := by
  obtain ⟨other, hsame, hmem⟩ := @mem_of_repository_get lookupDigest (.apiKey accountId keyId)
    (.apiKey accountId keyId) (fun found => found) (Program.bind_done _).symm part found hreplays
  rw [← hsame]
  exact hmem

theorem mem_of_session {lookupDigest : String → String} {accountId : AccountId}
    {sessionId : SessionId} {part : List ((r : BackendRequest) × r.Response)}
    {found : Option AuthSession}
    (hreplays : (backendHandler lookupDigest (.repository (.session accountId sessionId))).Replays
      part (.done (.ok found))) :
    (⟨.store (.get (.session accountId sessionId)), .ok found⟩ :
      (r : BackendRequest) × r.Response) ∈ part := by
  obtain ⟨other, hsame, hmem⟩ := @mem_of_repository_get lookupDigest
    (.session accountId sessionId) (.session accountId sessionId) (fun found => found)
    (Program.bind_done _).symm part found hreplays
  rw [← hsame]
  exact hmem

end SeizaServer
