import SeizaServer.IdentityModel
import SeizaServer.KeyedTable

/-!
# The SQLx identity repository

The tables of the identity schema and its repository methods, each of them one
atomic step.  The order in which a query returns rows of equal creation time is
left open.
-/

namespace SeizaServer

/-! ## Tables -/

/-- The accounts, with the two unique columns beside the primary key. -/
structure AccountTable where
  table : KeyedTable Account AccountId Account.id
  emails : (table.rows.map Account.emailLookup).Nodup
  handles : (table.rows.map Account.webauthnUserHandle).Nodup

namespace AccountTable

def find? (accounts : AccountTable) (accountId : AccountId) : Option Account :=
  accounts.table.find? accountId

def byEmail? (accounts : AccountTable) (emailLookup : String) : Option Account :=
  accounts.table.rows.find? fun account => account.emailLookup = emailLookup

/-- Update a row in columns that are not unique. -/
def modify (accounts : AccountTable) (p : Account → Bool) (f : Account → Account)
    (hid : ∀ account, (f account).id = account.id := by intro account; rfl)
    (hemail : ∀ account, (f account).emailLookup = account.emailLookup := by intro account; rfl)
    (hhandle : ∀ account, (f account).webauthnUserHandle = account.webauthnUserHandle := by
      intro account; rfl) : AccountTable where
  table := accounts.table.modify p f hid
  emails := by
    have hsame : (accounts.table.modify p f hid).rows.map Account.emailLookup =
        accounts.table.rows.map Account.emailLookup := by
      unfold KeyedTable.modify
      rw [List.map_map]
      apply List.map_congr_left
      intro account _
      by_cases hselected : p account <;> simp [hselected, hemail]
    rw [hsame]
    exact accounts.emails
  handles := by
    have hsame : (accounts.table.modify p f hid).rows.map Account.webauthnUserHandle =
        accounts.table.rows.map Account.webauthnUserHandle := by
      unfold KeyedTable.modify
      rw [List.map_map]
      apply List.map_congr_left
      intro account _
      by_cases hselected : p account <;> simp [hselected, hhandle]
    rw [hsame]
    exact accounts.handles

/-- Append a row whose unique columns are new. -/
def append (accounts : AccountTable) (account : Account)
    (hid : accounts.table.find? account.id = none)
    (hemail : account.emailLookup ∉ accounts.table.rows.map Account.emailLookup)
    (hhandle : account.webauthnUserHandle ∉
      accounts.table.rows.map Account.webauthnUserHandle) : AccountTable where
  table := accounts.table.append account hid
  emails := by
    unfold KeyedTable.append
    rw [List.map_append, List.nodup_append]
    refine ⟨accounts.emails, List.nodup_singleton _, ?_⟩
    intro email hold other hnew hsame
    rw [List.map_singleton, List.mem_singleton] at hnew
    rw [hsame, hnew] at hold
    exact hemail hold
  handles := by
    unfold KeyedTable.append
    rw [List.map_append, List.nodup_append]
    refine ⟨accounts.handles, List.nodup_singleton _, ?_⟩
    intro handle hold other hnew hsame
    rw [List.map_singleton, List.mem_singleton] at hnew
    rw [hsame, hnew] at hold
    exact hhandle hold

/-- `INSERT … ON CONFLICT(email_lookup) DO NOTHING`, and how many rows it
inserted. -/
def insertNew (accounts : AccountTable) (account : Account) : Except Fault (AccountTable × ℕ) :=
  if hid : accounts.table.find? account.id = none then
    if hemail : account.emailLookup ∈ accounts.table.rows.map Account.emailLookup then
      .ok (accounts, 0)
    else
      if hhandle : account.webauthnUserHandle ∈
          accounts.table.rows.map Account.webauthnUserHandle then
        .error (.database "UNIQUE constraint failed: accounts.webauthn_user_handle")
      else .ok (accounts.append account hid hemail hhandle, 1)
  else .error (.database "UNIQUE constraint failed: accounts.id")

end AccountTable

structure IdentityDatabase where
  accounts : AccountTable
  authChallenges : KeyedTable AuthChallenge ChallengeId AuthChallenge.id
  authSessions : KeyedTable AuthSession SessionId AuthSession.id
  apiKeys : KeyedTable ApiKey ApiKeyId ApiKey.id
  passkeyCredentials : KeyedTable PasskeyCredential Uuid PasskeyCredential.id

namespace IdentityDatabase

variable (db : IdentityDatabase)

/-! ## Statements -/

/-- A row found by its key, if it belongs to the account. -/
def session (accountId : AccountId) (sessionId : SessionId) : Option AuthSession :=
  (db.authSessions.find? sessionId).filter fun session => session.accountId = accountId

def apiKey (accountId : AccountId) (keyId : ApiKeyId) : Option ApiKey :=
  (db.apiKeys.find? keyId).filter fun key => key.accountId = accountId

def insertChallenge (challenge : AuthChallenge) : Except Fault IdentityDatabase :=
  if challenge.accountId.all fun accountId => (db.accounts.find? accountId).isSome then
    match db.authChallenges.insert? challenge with
    | some challenges => .ok { db with authChallenges := challenges }
    | none => .error (.database "UNIQUE constraint failed: auth_challenges.id")
  else .error (.database "FOREIGN KEY constraint failed")

def insertSession (session : AuthSession) : Except Fault IdentityDatabase :=
  if (db.accounts.find? session.accountId).isSome ∧
      session.apiKeyId.all fun keyId => (db.apiKeys.find? keyId).isSome then
    match db.authSessions.insert? session with
    | some sessions => .ok { db with authSessions := sessions }
    | none => .error (.database "UNIQUE constraint failed: auth_sessions.id")
  else .error (.database "FOREIGN KEY constraint failed")

/-- Mark the selected challenges consumed. -/
def consume (selected : AuthChallenge → Bool) (now : Time) : IdentityDatabase :=
  { db with authChallenges := db.authChallenges.modify selected fun challenge =>
      { challenge with consumedAt := some now } }

/-- Set the revocation time of the selected sessions. -/
def revokeSessions (selected : AuthSession → Bool) (revokedAt : Time) : IdentityDatabase :=
  let selected := fun session => selected session && session.revokedAt.isNone
  { db with authSessions := db.authSessions.modify selected fun session =>
      { session with revokedAt := some revokedAt } }

/-! ## Repository methods -/

/-- The live challenges of an email in the order the query returns them. -/
def LiveChallenges (emailLookup : Option String) (now : Time) (live : List AuthChallenge) : Prop :=
  live.Perm (db.authChallenges.rows.filter fun challenge =>
      challenge.emailLookup = emailLookup && challenge.purpose = .emailLogin &&
        challenge.consumedAt.isNone && now < challenge.expiresAt) ∧
    live.Pairwise fun first second => second.createdAt ≤ first.createdAt

/-- Consume the challenges that this query returned beyond the limit. -/
def evict (live : List AuthChallenge) (maxLive : ℕ) (now : Time) : IdentityDatabase :=
  db.consume (fun challenge =>
    challenge.id ∈ (live.drop maxLive).map AuthChallenge.id && challenge.consumedAt.isNone) now

def CreateEmailChallenge (challenge : AuthChallenge) (maxLive : ℕ) (reply : Except Fault Unit)
    (after : IdentityDatabase) : Prop :=
  if challenge.purpose ≠ .emailLogin then
    reply = .error (.bail "email challenge storage requires purpose=email-login") ∧ after = db
  else if maxLive = 0 then
    reply = .error (.bail "email challenge live limit must be at least one") ∧ after = db
  else if challenge.emailLookup = none then
    reply = .error (.bail "email challenge is missing email_lookup") ∧ after = db
  else
    match db.insertChallenge challenge with
    | .error cause => reply = .error cause ∧ after = db
    | .ok inserted =>
        reply = .ok () ∧ ∃ live,
          inserted.LiveChallenges challenge.emailLookup challenge.createdAt live ∧
            after = inserted.evict live maxLive challenge.createdAt

/-- The conditions of both updates that end an attempt. -/
def Attemptable (now : Time) (maxAttempts : ℕ) (challenge : AuthChallenge) : Bool :=
  challenge.consumedAt.isNone && now < challenge.expiresAt && challenge.attempts < maxAttempts

def recordChallengeFailure (challengeId : ChallengeId) (now : Time) (maxAttempts : ℕ) :
    Option AuthChallenge × IdentityDatabase :=
  let selected := fun challenge : AuthChallenge =>
    challenge.id = challengeId && Attemptable now maxAttempts challenge
  if db.authChallenges.affected selected = 0 then (none, db)
  else
    let after := { db with authChallenges := db.authChallenges.modify selected fun challenge =>
      { challenge with attempts := challenge.attempts + 1 } }
    (after.authChallenges.find? challengeId, after)

/-- The account of an email, created if there is none, and whether it was. -/
def accountForEmail (emailLookup : String) (newAccount : Account) :
    Except Fault (IdentityDatabase × Account × Bool) :=
  match db.accounts.byEmail? emailLookup with
  | some account => .ok (db, account, false)
  | none => do
      let (accounts, inserted) ← db.accounts.insertNew newAccount
      match accounts.byEmail? emailLookup with
      | none => .error (.database "no rows returned by a query that expected to return at least one row")
      | some account => .ok ({ db with accounts := accounts }, account, inserted = 1)

/-- An error and an answer `none` roll the transaction back. -/
def completeEmailChallenge (challengeId : ChallengeId) (now : Time) (maxAttempts : ℕ)
    (newAccount : Account) (newSession : AuthSession) :
    Except Fault (Option CompletedEmailSignIn × IdentityDatabase) :=
  match db.authChallenges.find? challengeId with
  | none => .ok (none, db)
  | some challenge =>
      match challenge.emailLookup with
      | none => .ok (none, db)
      | some emailLookup =>
          if challenge.purpose ≠ .emailLogin then .ok (none, db)
          else if Attemptable now maxAttempts challenge = false then .ok (none, db)
          else do
            let consumed := db.consume (fun challenge => challenge.id = challengeId) now
            let (located, account, accountCreated) ←
              consumed.accountForEmail emailLookup newAccount
            if account.status ≠ .active then .ok (none, db)
            else do
              let session := { newSession with accountId := account.id }
              let inserted ← located.insertSession session
              let siblings := inserted.consume (fun challenge =>
                challenge.emailLookup = some emailLookup && challenge.purpose = .emailLogin &&
                  challenge.consumedAt.isNone) now
              let authenticated := fun row : Account => decide (row.id = account.id)
              let after := { siblings with accounts := siblings.accounts.modify authenticated fun row =>
                { row with updatedAt := now, lastAuthenticatedAt := now } }
              .ok (some ⟨{ account with updatedAt := now, lastAuthenticatedAt := now }, session,
                accountCreated⟩, after)

def touchSession (accountId : AccountId) (sessionId : SessionId) (lastSeenAt expiresAt : Time) :
    Bool × IdentityDatabase :=
  let selected := fun session : AuthSession => session.id = sessionId &&
    session.accountId = accountId && session.revokedAt.isNone &&
      lastSeenAt < session.absoluteExpiresAt
  (db.authSessions.affected selected = 1,
    { db with authSessions := db.authSessions.modify selected fun session =>
      { session with lastSeenAt := lastSeenAt, expiresAt := expiresAt } })

def deleteSession (accountId : AccountId) (sessionId : SessionId) : IdentityDatabase :=
  { db with authSessions := db.authSessions.filter fun session =>
      !(session.id = sessionId && session.accountId = accountId) }

def completePasskeySignIn (challengeId : ChallengeId) (passkey : PasskeyCredential)
    (session : AuthSession) (now : Time) :
    Except Fault (Option CompletedPasskeySignIn × IdentityDatabase) :=
  if passkey.accountId ≠ session.accountId then
    .error (.bail "passkey and session account IDs differ")
  else
    match (db.accounts.find? passkey.accountId).filter fun row => row.status = .active with
    | none => .ok (none, db)
    | some account =>
        let consumable := fun challenge : AuthChallenge => challenge.id = challengeId &&
          challenge.purpose = .passkeyAuthentication && challenge.consumedAt.isNone &&
            now < challenge.expiresAt
        let usable := fun row : PasskeyCredential => row.id = passkey.id &&
          row.credentialId = passkey.credentialId && row.accountId = passkey.accountId &&
            row.revokedAt.isNone
        if db.authChallenges.affected consumable = 0 then .ok (none, db)
        else if db.passkeyCredentials.affected usable = 0 then .ok (none, db)
        else do
          let consumed := db.consume consumable now
          let updated := { consumed with passkeyCredentials :=
            consumed.passkeyCredentials.modify usable fun row =>
              { row with credentialJson := passkey.credentialJson, lastUsedAt := some now } }
          let inserted ← updated.insertSession session
          let authenticated := fun row : Account =>
            row.id = passkey.accountId && row.status = .active
          let after := { inserted with accounts := inserted.accounts.modify authenticated fun row =>
            { row with updatedAt := now, lastAuthenticatedAt := now } }
          .ok (some ⟨{ account with updatedAt := now, lastAuthenticatedAt := now }, session,
            { passkey with lastUsedAt := some now }⟩, after)

def touchApiKey (accountId : AccountId) (keyId : ApiKeyId) (lastUsedAt : Time) :
    Bool × IdentityDatabase :=
  let selected := fun key : ApiKey => key.id = keyId && key.accountId = accountId &&
    key.revokedAt.isNone && key.expiresAt.all fun expires => lastUsedAt < expires
  (0 < db.apiKeys.affected selected,
    { db with apiKeys := db.apiKeys.modify selected fun key =>
      { key with lastUsedAt := some lastUsedAt } })

def revokeApiKey (accountId : AccountId) (keyId : ApiKeyId) (revokedAt : Time) :
    Bool × IdentityDatabase :=
  let selected := fun key : ApiKey => key.id = keyId && key.accountId = accountId &&
    key.revokedAt.isNone
  if db.apiKeys.affected selected = 0 then (false, db)
  else
    let revoked := { db with apiKeys := db.apiKeys.modify selected fun key =>
      { key with revokedAt := some revokedAt } }
    (true, revoked.revokeSessions (fun session => session.accountId = accountId &&
      session.apiKeyId = some keyId) revokedAt)

/-- Challenges are kept one day past expiry and dead sessions thirty days. -/
def purgeExpired (now : Time) : IdentityDatabase :=
  { db with
    authChallenges := db.authChallenges.filter fun challenge =>
      !(challenge.expiresAt < now - days 1)
    authSessions := db.authSessions.filter fun session =>
      !(session.absoluteExpiresAt < now || session.expiresAt < now - days 30 ||
        session.revokedAt.any fun revokedAt => revokedAt < now - days 30) }

/-- How the repository answers a call, and the database it leaves. -/
def Answers : (call : IdentityCall) → Except Fault call.Result → IdentityDatabase → Prop
  | .accountById accountId, reply, after => reply = .ok (db.accounts.find? accountId) ∧ after = db
  | .challengeById challengeId, reply, after =>
      reply = .ok (db.authChallenges.find? challengeId) ∧ after = db
  | .createEmailChallenge challenge maxLive, reply, after =>
      db.CreateEmailChallenge challenge maxLive reply after
  | .recordChallengeFailure challengeId now maxAttempts, reply, after =>
      reply = .ok (db.recordChallengeFailure challengeId now maxAttempts).1 ∧
        after = (db.recordChallengeFailure challengeId now maxAttempts).2
  | .completeEmailChallenge challengeId now maxAttempts newAccount newSession, reply, after =>
      match db.completeEmailChallenge challengeId now maxAttempts newAccount newSession with
      | .error cause => reply = .error cause ∧ after = db
      | .ok (completed, written) => reply = .ok completed ∧ after = written
  | .createSession session, reply, after =>
      match db.insertSession session with
      | .error cause => reply = .error cause ∧ after = db
      | .ok written => reply = .ok () ∧ after = written
  | .session accountId sessionId, reply, after =>
      reply = .ok (db.session accountId sessionId) ∧ after = db
  | .listSessions accountId, reply, after =>
      (∃ sessions, reply = .ok sessions ∧
        sessions.Perm (db.authSessions.rows.filter fun session => session.accountId = accountId) ∧
        sessions.Pairwise fun first second => second.createdAt ≤ first.createdAt) ∧ after = db
  | .touchSession accountId sessionId lastSeenAt expiresAt, reply, after =>
      reply = .ok (db.touchSession accountId sessionId lastSeenAt expiresAt).1 ∧
        after = (db.touchSession accountId sessionId lastSeenAt expiresAt).2
  | .revokeSession accountId sessionId revokedAt, reply, after =>
      reply = .ok (db.authSessions.affected (fun session => session.id = sessionId &&
          session.accountId = accountId && session.revokedAt.isNone) = 1) ∧
        after = db.revokeSessions (fun session => session.id = sessionId &&
          session.accountId = accountId) revokedAt
  | .revokeAllSessions accountId revokedAt, reply, after =>
      reply = .ok (db.authSessions.affected fun session => session.accountId = accountId &&
          session.revokedAt.isNone) ∧
        after = db.revokeSessions (fun session => session.accountId = accountId) revokedAt
  | .deleteSession accountId sessionId, reply, after =>
      reply = .ok () ∧ after = db.deleteSession accountId sessionId
  | .passkeyByCredentialId credentialId, reply, after =>
      reply = .ok (db.passkeyCredentials.rows.find? fun row =>
        row.credentialId = credentialId && row.revokedAt.isNone) ∧ after = db
  | .completePasskeySignIn challengeId passkey session now, reply, after =>
      match db.completePasskeySignIn challengeId passkey session now with
      | .error cause => reply = .error cause ∧ after = db
      | .ok (completed, written) => reply = .ok completed ∧ after = written
  | .apiKey accountId keyId, reply, after => reply = .ok (db.apiKey accountId keyId) ∧ after = db
  | .touchApiKey accountId keyId lastUsedAt, reply, after =>
      reply = .ok (db.touchApiKey accountId keyId lastUsedAt).1 ∧
        after = (db.touchApiKey accountId keyId lastUsedAt).2
  | .revokeApiKey accountId keyId revokedAt, reply, after =>
      reply = .ok (db.revokeApiKey accountId keyId revokedAt).1 ∧
        after = (db.revokeApiKey accountId keyId revokedAt).2
  | .purgeExpired now, reply, after =>
      reply = .ok (db.authChallenges.rows.length - (db.purgeExpired now).authChallenges.rows.length +
          (db.authSessions.rows.length - (db.purgeExpired now).authSessions.rows.length)) ∧
        after = db.purgeExpired now

/-- A call is answered, or fails and writes nothing. -/
def Serves (call : IdentityCall) (reply : Except Fault call.Result) (after : IdentityDatabase) :
    Prop :=
  db.Answers call reply after ∨ ((∃ message, reply = .error (.database message)) ∧ after = db)

end IdentityDatabase

end SeizaServer
