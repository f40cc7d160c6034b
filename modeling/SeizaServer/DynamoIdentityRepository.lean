import SeizaServer.IdentityModel
import SeizaServer.TransactionalStore

/-!
# The DynamoDB identity repository

The items of the identity table, and the repository methods as programs over
consistent reads, conditional updates and transactions.  A composite key is
spelled out by the items it can lead to.  The digest of lookup keys is a
parameter.
-/

namespace SeizaServer

open Interaction TransactionalStore

/-! ## Items -/

/-- The partition and sort keys of the table. -/
inductive IdentityKey where
  | profile (accountId : AccountId)
  | session (accountId : AccountId) (sessionId : SessionId)
  | passkey (accountId : AccountId) (passkeyId : Uuid)
  | apiKey (accountId : AccountId) (keyId : ApiKeyId)
  | emailAlias (digest : String)
  | tracker (digest : String)
  | userAlias (digest : String)
  | challenge (challengeId : ChallengeId)
  | credential (digest : String)
  deriving DecidableEq

/-- An item that leads from an email or a user handle to an account. -/
structure AccountAlias where
  accountId : AccountId
  deriving DecidableEq

/-- The newest challenges of an email. -/
structure ChallengeTracker where
  version : ℕ
  challengeIds : List ChallengeId
  deriving DecidableEq

/-- An item that leads from a credential to its passkey. -/
structure CredentialLookup where
  accountId : AccountId
  passkeyId : Uuid
  deriving DecidableEq

@[reducible] def IdentityKey.Item : IdentityKey → Type
  | .profile _ => Account
  | .session .. => AuthSession
  | .passkey .. => PasskeyCredential
  | .apiKey .. => ApiKey
  | .emailAlias _ => AccountAlias
  | .tracker _ => ChallengeTracker
  | .userAlias _ => AccountAlias
  | .challenge _ => AuthChallenge
  | .credential _ => CredentialLookup

abbrev IdentityTable := Store IdentityKey.Item

abbrev IdentityWrite := Write IdentityKey.Item

abbrev IdentityRequest := StoreRequest IdentityKey.Item

abbrev TableProgram := Program IdentityRequest (StoreRequest.Response Fault) Fault

namespace DynamoIdentity

/-! ## Requests -/

def getItem (key : IdentityKey) : TableProgram (Option key.Item) :=
  .request (.get key) Program.ofExcept

/-- A conditional update or deletion: nothing if the condition failed. -/
def writeItem (write : IdentityWrite) : TableProgram (Option (Option write.key.Item)) :=
  .request (.writeItem write) Program.ofExcept

/-- `canceled_only_by_condition_checks`, for a transaction that was canceled. -/
def canceledOnlyByConditionChecks (reasons : List (Option String)) : Bool :=
  reasons.isEmpty || reasons.all fun reason =>
    reason = none || reason = some "None" || reason = some "ConditionalCheckFailed"

/-- The error of a transaction that was canceled. -/
def canceledFault : Fault := .database "TransactionCanceledException"

/-- A transaction whose failure is the failure of the method. -/
def transact (writes : List IdentityWrite) : TableProgram Unit :=
  .request (.transact writes) fun outcome =>
    match outcome with
    | .committed => .done ()
    | .canceled _ => .fault canceledFault
    | .failed cause => .fault cause

def activeAccountCheck (accountId : AccountId) : IdentityWrite :=
  .check (.profile accountId) fun account => account.status = .active

/-! ## Accounts and challenges -/

def accountById (accountId : AccountId) : TableProgram (Option Account) :=
  getItem (.profile accountId)

def challengeById (challengeId : ChallengeId) : TableProgram (Option AuthChallenge) :=
  getItem (.challenge challengeId)

variable (lookupDigest : String → String)

def accountByEmailLookup (emailLookup : String) : TableProgram (Option Account) := do
  let found ← getItem (.emailAlias (lookupDigest emailLookup))
  match found with
  | none => return none
  | some aliasItem => accountById aliasItem.accountId

/-- Replace the tracker unless it has changed since it was read. -/
def trackerPut (emailLookup : String) (tracker : Option ChallengeTracker)
    (challengeIds : List ChallengeId) : IdentityWrite :=
  let version := tracker.elim 0 ChallengeTracker.version
  .putIf (.tracker (lookupDigest emailLookup)) ⟨version + 1, challengeIds⟩ fun found =>
    match tracker with
    | some _ => found.any fun current => current.version = version
    | none => found.isNone

def challengeDelete (challengeId : ChallengeId) : IdentityWrite := .delete (.challenge challengeId)

/-- The challenges of an email with a new one, the newest first. -/
def trackedWith (tracker : Option ChallengeTracker) (challengeId : ChallengeId) :
    List ChallengeId :=
  challengeId :: (tracker.elim [] ChallengeTracker.challengeIds).filter fun id => id ≠ challengeId

def createEmailChallengeWrites (challenge : AuthChallenge) (emailLookup : String) (maxLive : ℕ)
    (tracker : Option ChallengeTracker) : List IdentityWrite :=
  let challengeIds := trackedWith tracker challenge.id
  .putNew (.challenge challenge.id) challenge ::
    trackerPut lookupDigest emailLookup tracker (challengeIds.take maxLive) ::
      (challengeIds.drop maxLive).map challengeDelete

def createEmailChallengeAttempts (challenge : AuthChallenge) (emailLookup : String) (maxLive : ℕ) :
    ℕ → TableProgram Unit
  | 0 => .fault (.bail "email challenge tracker changed too frequently; retry the request")
  | attempts + 1 => do
      let tracker ← getItem (.tracker (lookupDigest emailLookup))
      .request (.transact (createEmailChallengeWrites lookupDigest challenge emailLookup maxLive
        tracker)) fun outcome =>
          match outcome with
          | .committed => .done ()
          | .canceled _ => createEmailChallengeAttempts challenge emailLookup maxLive attempts
          | .failed cause => .fault cause

def createEmailChallenge (challenge : AuthChallenge) (maxLive : ℕ) : TableProgram Unit :=
  if challenge.purpose ≠ .emailLogin then
    .fault (.bail "email challenge storage requires purpose=email-login")
  else if maxLive = 0 then .fault (.bail "email challenge live limit must be at least one")
  else
    match challenge.emailLookup with
    | none => .fault (.bail "email challenge is missing email_lookup")
    | some emailLookup => createEmailChallengeAttempts lookupDigest challenge emailLookup maxLive 5

/-- The condition of both updates that end an attempt. -/
def attemptable (now : Time) (maxAttempts : ℕ) (challenge : AuthChallenge) : Bool :=
  challenge.consumedAt.isNone && now < challenge.expiresAt && challenge.attempts < maxAttempts

def recordFailureWrite (challengeId : ChallengeId) (now : Time) (maxAttempts : ℕ) :
    IdentityWrite :=
  .update (.challenge challengeId) (attemptable now maxAttempts) fun challenge =>
    { challenge with attempts := challenge.attempts + 1 }

def recordChallengeFailure (challengeId : ChallengeId) (now : Time) (maxAttempts : ℕ) :
    TableProgram (Option AuthChallenge) := do
  let written ← writeItem (recordFailureWrite challengeId now maxAttempts)
  return written.join

def consumeEmailChallenge (challengeId : ChallengeId) (now : Time) (maxAttempts : ℕ) :
    IdentityWrite :=
  .update (.challenge challengeId)
    (fun challenge => challenge.purpose = .emailLogin && attemptable now maxAttempts challenge)
    fun challenge => { challenge with consumedAt := some now }

/-- The three items of a new account. -/
def accountPuts (account : Account) (emailLookup : String) : List IdentityWrite :=
  [.putNew (.profile account.id) account,
    .putNew (.emailAlias (lookupDigest emailLookup)) ⟨account.id⟩,
    .putNew (.userAlias (lookupDigest account.webauthnUserHandle)) ⟨account.id⟩]

def updateAccount (accountId : AccountId) (now : Time) : IdentityWrite :=
  .update (.profile accountId) (fun account => account.status = .active) fun account =>
    { account with updatedAt := now, lastAuthenticatedAt := now }

def sessionPut (session : AuthSession) : IdentityWrite :=
  .putNew (.session session.accountId session.id) session

/-- What a completion has read. -/
structure CompletionView where
  emailLookup : String
  tracker : Option ChallengeTracker
  existingAccount : Option Account

def completeEmailChallengeWrites (challengeId : ChallengeId) (now : Time) (maxAttempts : ℕ)
    (newAccount : Account) (newSession : AuthSession) (view : CompletionView) :
    List IdentityWrite :=
  let liveIds := view.tracker.elim [challengeId] ChallengeTracker.challengeIds
  let account := view.existingAccount.getD newAccount
  consumeEmailChallenge challengeId now maxAttempts ::
    ((liveIds.filter fun id => id ≠ challengeId).map challengeDelete ++
      trackerPut lookupDigest view.emailLookup view.tracker [] ::
        ((match view.existingAccount with
          | none => accountPuts lookupDigest account view.emailLookup
          | some _ => [updateAccount account.id now]) ++
            [sessionPut { newSession with accountId := account.id }]))

def completedEmailSignIn (now : Time) (newAccount : Account) (newSession : AuthSession)
    (view : CompletionView) : CompletedEmailSignIn :=
  let account := view.existingAccount.getD newAccount
  ⟨{ account with updatedAt := now, lastAuthenticatedAt := now },
    { newSession with accountId := account.id }, view.existingAccount.isNone⟩

/-- The checks of a completion on the challenge it has read. -/
def completable (now : Time) (maxAttempts : ℕ) (newAccount : Account) (challenge : AuthChallenge) :
    Option String :=
  match challenge.emailLookup with
  | none => none
  | some emailLookup =>
      if challenge.purpose ≠ .emailLogin ∨ challenge.consumedAt.isSome ∨ challenge.expiresAt ≤ now ∨
          maxAttempts ≤ challenge.attempts ∨ newAccount.emailLookup ≠ emailLookup then none
      else some emailLookup

def completeEmailChallengeAttempts (challengeId : ChallengeId) (now : Time) (maxAttempts : ℕ)
    (newAccount : Account) (newSession : AuthSession) :
    ℕ → TableProgram (Option CompletedEmailSignIn)
  | 0 => .fault (.bail "email sign-in state changed too frequently; retry the request")
  | attempts + 1 => do
      let found ← challengeById challengeId
      match found.bind (completable now maxAttempts newAccount) with
      | none => return none
      | some emailLookup => do
          let tracker ← getItem (.tracker (lookupDigest emailLookup))
          let existingAccount ← accountByEmailLookup lookupDigest emailLookup
          if existingAccount.any fun account => account.status ≠ .active then return none
          else
            let view : CompletionView := ⟨emailLookup, tracker, existingAccount⟩
            .request (.transact (completeEmailChallengeWrites lookupDigest challengeId now
              maxAttempts newAccount newSession view)) fun outcome =>
                match outcome with
                | .committed => .done (some (completedEmailSignIn now newAccount newSession view))
                | .canceled _ => do
                    let again ← challengeById challengeId
                    if again.any (attemptable now maxAttempts) then
                      completeEmailChallengeAttempts challengeId now maxAttempts newAccount
                        newSession attempts
                    else return none
                | .failed cause => .fault cause

def completeEmailChallenge (challengeId : ChallengeId) (now : Time) (maxAttempts : ℕ)
    (newAccount : Account) (newSession : AuthSession) :
    TableProgram (Option CompletedEmailSignIn) :=
  completeEmailChallengeAttempts lookupDigest challengeId now maxAttempts newAccount newSession 5

/-! ## Sessions -/

def createSession (session : AuthSession) : TableProgram Unit :=
  transact [activeAccountCheck session.accountId, sessionPut session]

def session (accountId : AccountId) (sessionId : SessionId) :
    TableProgram (Option AuthSession) :=
  getItem (.session accountId sessionId)

/-- The keys of the sessions of an account. -/
def sessionsOf (accountId : AccountId) : IdentityKey → Bool
  | .session account _ => account = accountId
  | _ => false

/-- `session_from_item`. -/
def sessionFromItem : ((key : IdentityKey) × key.Item) → Option AuthSession
  | ⟨.session _ _, session⟩ => some session
  | _ => none

def listSessions (accountId : AccountId) : TableProgram (List AuthSession) :=
  .request (.query (sessionsOf accountId)) fun queried =>
    (Program.ofExcept queried).bind fun items => .done (items.filterMap sessionFromItem)

def touchSessionWrite (accountId : AccountId) (sessionId : SessionId)
    (lastSeenAt expiresAt : Time) : IdentityWrite :=
  .update (.session accountId sessionId)
    (fun session => session.revokedAt.isNone && lastSeenAt < session.absoluteExpiresAt)
    fun session => { session with lastSeenAt := lastSeenAt, expiresAt := expiresAt }

def touchSession (accountId : AccountId) (sessionId : SessionId) (lastSeenAt expiresAt : Time) :
    TableProgram Bool := do
  let written ← writeItem (touchSessionWrite accountId sessionId lastSeenAt expiresAt)
  return written.isSome

def revokeSessionWrite (accountId : AccountId) (sessionId : SessionId) (revokedAt : Time) :
    IdentityWrite :=
  .update (.session accountId sessionId) (fun session => session.revokedAt.isNone) fun session =>
    { session with revokedAt := some revokedAt }

def revokeSession (accountId : AccountId) (sessionId : SessionId) (revokedAt : Time) :
    TableProgram Bool := do
  let written ← writeItem (revokeSessionWrite accountId sessionId revokedAt)
  return written.isSome

/-- Revoke these sessions one by one, and count. -/
def revokeEach (accountId : AccountId) (revokedAt : Time) : List AuthSession → TableProgram ℕ
  | [] => .done 0
  | session :: rest => do
      let revoked ← revokeSession accountId session.id revokedAt
      let others ← revokeEach accountId revokedAt rest
      return if revoked then others + 1 else others

def revokeAllSessions (accountId : AccountId) (revokedAt : Time) : TableProgram ℕ := do
  let sessions ← listSessions accountId
  revokeEach accountId revokedAt sessions

def deleteSession (accountId : AccountId) (sessionId : SessionId) : TableProgram Unit := do
  let _ ← writeItem (.delete (.session accountId sessionId))
  return ()

/-! ## Passkeys -/

def credentialPut (passkey : PasskeyCredential) : IdentityWrite :=
  .putNew (.credential (lookupDigest passkey.credentialId)) ⟨passkey.accountId, passkey.id⟩

def passkeyPut (passkey : PasskeyCredential) : IdentityWrite :=
  .putNew (.passkey passkey.accountId passkey.id) passkey

def createPasskey (passkey : PasskeyCredential) : TableProgram Unit :=
  transact [activeAccountCheck passkey.accountId, passkeyPut passkey,
    credentialPut lookupDigest passkey]

/-- Send a transaction until it commits, is refused by a condition or fails; a
conflict is tried again. -/
def transactRefusable {α : Type} (writes : List IdentityWrite) (committed : TableProgram α)
    (refused : α) (conflicted : String) : ℕ → TableProgram α
  | 0 => .fault (.bail conflicted)
  | attempts + 1 => .request (.transact writes) fun outcome =>
      match outcome with
      | .committed => committed
      | .canceled reasons =>
          if canceledOnlyByConditionChecks reasons then .done refused
          else transactRefusable writes committed refused conflicted attempts
      | .failed cause => .fault cause

def registrationWrites (challengeId : ChallengeId) (passkey : PasskeyCredential) (now : Time) :
    List IdentityWrite :=
  [.update (.challenge challengeId)
      (fun challenge => challenge.purpose = .passkeyRegistration &&
        challenge.accountId = some passkey.accountId && challenge.consumedAt.isNone &&
          now < challenge.expiresAt)
      fun challenge => { challenge with consumedAt := some now },
    activeAccountCheck passkey.accountId, passkeyPut passkey, credentialPut lookupDigest passkey]

def completePasskeyRegistration (challengeId : ChallengeId) (passkey : PasskeyCredential)
    (now : Time) : TableProgram Bool :=
  transactRefusable (registrationWrites lookupDigest challengeId passkey now) (.done true) false
    "passkey registration conflicted with concurrent account activity; retry" 5

def passkeySignInWrites (challengeId : ChallengeId) (passkey : PasskeyCredential)
    (session : AuthSession) (now : Time) : List IdentityWrite :=
  [.update (.challenge challengeId)
      (fun challenge => challenge.purpose = .passkeyAuthentication &&
        challenge.consumedAt.isNone && now < challenge.expiresAt)
      fun challenge => { challenge with consumedAt := some now },
    .update (.passkey passkey.accountId passkey.id)
      (fun row => row.revokedAt.isNone && row.credentialId = passkey.credentialId)
      fun row => { row with credentialJson := passkey.credentialJson, lastUsedAt := some now },
    sessionPut session, updateAccount passkey.accountId now]

def completePasskeySignIn (challengeId : ChallengeId) (passkey : PasskeyCredential)
    (session : AuthSession) (now : Time) : TableProgram (Option CompletedPasskeySignIn) :=
  if passkey.accountId ≠ session.accountId then
    .fault (.bail "passkey and session account IDs differ")
  else
    transactRefusable (passkeySignInWrites challengeId passkey session now)
      (accountById passkey.accountId >>= fun found =>
        match found with
        | none => .fault (.bail "passkey account disappeared after successful authentication")
        | some account =>
            pure (some ⟨account, session, { passkey with lastUsedAt := some now }⟩))
      none "passkey sign-in conflicted with concurrent account activity; retry" 5

def passkeyByCredentialId (credentialId : String) : TableProgram (Option PasskeyCredential) := do
  let lookup ← getItem (.credential (lookupDigest credentialId))
  match lookup with
  | none => return none
  | some lookup => getItem (.passkey lookup.accountId lookup.passkeyId)

def revokePasskeyWrites (accountId : AccountId) (passkeyId : Uuid) (passkey : PasskeyCredential)
    (revokedAt : Time) : List IdentityWrite :=
  [.update (.passkey accountId passkeyId)
      (fun row => row.revokedAt.isNone && row.credentialId = passkey.credentialId)
      fun row => { row with revokedAt := some revokedAt },
    .delete (.credential (lookupDigest passkey.credentialId))]

def revokePasskeyAttempts (accountId : AccountId) (passkeyId : Uuid) (revokedAt : Time) :
    ℕ → TableProgram Bool
  | 0 => .fault (.bail "passkey revocation conflicted with concurrent account activity; retry")
  | attempts + 1 => do
      let found ← getItem (.passkey accountId passkeyId)
      match found with
      | none => return false
      | some passkey =>
          if passkey.revokedAt.isSome then return false
          else
            .request (.transact (revokePasskeyWrites lookupDigest accountId passkeyId passkey
              revokedAt)) fun outcome =>
                match outcome with
                | .committed => .done true
                | .canceled reasons =>
                    if canceledOnlyByConditionChecks reasons then .done false
                    else revokePasskeyAttempts accountId passkeyId revokedAt attempts
                | .failed cause => .fault cause

def revokePasskey (accountId : AccountId) (passkeyId : Uuid) (revokedAt : Time) :
    TableProgram Bool :=
  revokePasskeyAttempts lookupDigest accountId passkeyId revokedAt 5

/-! ## API keys -/

def apiKey (accountId : AccountId) (keyId : ApiKeyId) : TableProgram (Option ApiKey) :=
  getItem (.apiKey accountId keyId)

def touchApiKeyWrite (accountId : AccountId) (keyId : ApiKeyId) (lastUsedAt : Time) :
    IdentityWrite :=
  .update (.apiKey accountId keyId)
    (fun key => key.revokedAt.isNone && key.expiresAt.all fun expires => lastUsedAt < expires)
    fun key => { key with lastUsedAt := some lastUsedAt }

def touchApiKey (accountId : AccountId) (keyId : ApiKeyId) (lastUsedAt : Time) :
    TableProgram Bool := do
  let written ← writeItem (touchApiKeyWrite accountId keyId lastUsedAt)
  return written.isSome

def revokeApiKeyWrite (accountId : AccountId) (keyId : ApiKeyId) (revokedAt : Time) :
    IdentityWrite :=
  .update (.apiKey accountId keyId) (fun key => key.revokedAt.isNone) fun key =>
    { key with revokedAt := some revokedAt }

/-- Revoke those of the sessions that the key minted. -/
def revokeMinted (accountId : AccountId) (keyId : ApiKeyId) (revokedAt : Time) :
    List AuthSession → TableProgram Bool
  | [] => .done true
  | session :: rest =>
      if session.apiKeyId = some keyId ∧ session.revokedAt.isNone then do
        let _ ← revokeSession accountId session.id revokedAt
        revokeMinted accountId keyId revokedAt rest
      else revokeMinted accountId keyId revokedAt rest

def revokeApiKey (accountId : AccountId) (keyId : ApiKeyId) (revokedAt : Time) :
    TableProgram Bool := do
  let written ← writeItem (revokeApiKeyWrite accountId keyId revokedAt)
  match written with
  | none => return false
  | some _ => do
      let sessions ← listSessions accountId
      revokeMinted accountId keyId revokedAt sessions

/-! ## The boundary -/

/-- The repository behind the calls of the identity boundary.  The table's time
to live takes the place of the sweep. -/
def program : (call : IdentityCall) → TableProgram call.Result
  | .accountById accountId => accountById accountId
  | .challengeById challengeId => challengeById challengeId
  | .createEmailChallenge challenge maxLive => createEmailChallenge lookupDigest challenge maxLive
  | .recordChallengeFailure challengeId now maxAttempts =>
      recordChallengeFailure challengeId now maxAttempts
  | .completeEmailChallenge challengeId now maxAttempts newAccount newSession =>
      completeEmailChallenge lookupDigest challengeId now maxAttempts newAccount newSession
  | .createSession newSession => createSession newSession
  | .session accountId sessionId => session accountId sessionId
  | .listSessions accountId => listSessions accountId
  | .touchSession accountId sessionId lastSeenAt expiresAt =>
      touchSession accountId sessionId lastSeenAt expiresAt
  | .revokeSession accountId sessionId revokedAt => revokeSession accountId sessionId revokedAt
  | .revokeAllSessions accountId revokedAt => revokeAllSessions accountId revokedAt
  | .deleteSession accountId sessionId => deleteSession accountId sessionId
  | .passkeyByCredentialId credentialId => passkeyByCredentialId lookupDigest credentialId
  | .completePasskeySignIn challengeId passkey newSession now =>
      completePasskeySignIn challengeId passkey newSession now
  | .apiKey accountId keyId => apiKey accountId keyId
  | .touchApiKey accountId keyId lastUsedAt => touchApiKey accountId keyId lastUsedAt
  | .revokeApiKey accountId keyId revokedAt => revokeApiKey accountId keyId revokedAt
  | .purgeExpired _ => .done 0

end DynamoIdentity

/-! ## Answers -/

abbrev IdentityAnswer := (r : IdentityRequest) × StoreRequest.Response Fault r

/-- A read, or a transaction that was canceled. -/
def Harmless (answer : IdentityAnswer) : Prop :=
  answer.1.writes = [] ∨ ∃ writes reasons, answer = ⟨.transact writes, .canceled reasons⟩

theorem unchanged_of_harmless {table after : IdentityTable} {r : IdentityRequest}
    {reply : StoreRequest.Response Fault r} (hserves : Serves table r reply after)
    (hharmless : Harmless ⟨r, reply⟩) : after = table := by
  cases hharmless with
  | inl hread =>
      cases hserves.effect with
      | inl hsame => exact hsame
      | inr hwritten =>
          have hafter := hwritten.2.2
          rw [hread] at hafter
          exact hafter
  | inr hcanceled =>
      obtain ⟨writes, reasons, hsame⟩ := hcanceled
      cases hsame
      cases hserves with
      | canceled writes reasons hreasons => rfl

end SeizaServer
