import SeizaServer.JobModel

/-!
# Accounts, challenges, sessions and keys

The records of the identity boundary, and the calls of it that the sign-in
service makes.  Digests, tokens and stored credentials are texts.
-/

namespace SeizaServer

abbrev Uuid := BitVec 128

abbrev AccountId := Uuid

abbrev ChallengeId := Uuid

abbrev SessionId := Uuid

abbrev ApiKeyId := Uuid

/-- `Duration::minutes`. -/
def minutes (count : ℤ) : Time := count * 60 * 10 ^ 9

/-- `Duration::days`. -/
def days (count : ℤ) : Time := minutes (count * 24 * 60)

inductive AccountStatus where
  | active
  | disabled
  deriving DecidableEq, Repr

structure Account where
  id : AccountId
  email : String
  emailLookup : String
  emailVerifiedAt : Time
  webauthnUserHandle : String
  status : AccountStatus
  createdAt : Time
  updatedAt : Time
  lastAuthenticatedAt : Time
  deriving DecidableEq, Repr

inductive ChallengePurpose where
  | emailLogin
  | passkeyRegistration
  | passkeyAuthentication
  deriving DecidableEq, Repr

structure AuthChallenge where
  id : ChallengeId
  purpose : ChallengePurpose
  accountId : Option AccountId
  emailLookup : Option String
  linkTokenDigest : Option String
  codeDigest : Option String
  webauthnStateJson : Option String
  attempts : ℕ
  createdAt : Time
  expiresAt : Time
  consumedAt : Option Time
  deriving DecidableEq, Repr

inductive SessionKind where
  | browser
  | astrometry
  deriving DecidableEq, Repr

structure AuthSession where
  id : SessionId
  tokenDigest : String
  accountId : AccountId
  kind : SessionKind
  csrfDigest : Option String
  apiKeyId : Option ApiKeyId
  createdAt : Time
  lastSeenAt : Time
  expiresAt : Time
  absoluteExpiresAt : Time
  revokedAt : Option Time
  deriving DecidableEq, Repr

structure PasskeyCredential where
  id : Uuid
  credentialId : String
  accountId : AccountId
  credentialJson : String
  label : String
  createdAt : Time
  lastUsedAt : Option Time
  revokedAt : Option Time
  deriving DecidableEq, Repr

structure ApiKey where
  id : ApiKeyId
  accountId : AccountId
  secretDigest : String
  displayPrefix : String
  name : String
  scopes : List String
  queueWeight : ℚ
  createdAt : Time
  expiresAt : Option Time
  lastUsedAt : Option Time
  revokedAt : Option Time
  deriving DecidableEq

structure CompletedEmailSignIn where
  account : Account
  session : AuthSession
  accountCreated : Bool
  deriving DecidableEq, Repr

structure CompletedPasskeySignIn where
  account : Account
  session : AuthSession
  passkey : PasskeyCredential
  deriving DecidableEq, Repr

/-- The calls of the identity boundary. -/
inductive IdentityCall where
  | accountById (accountId : AccountId)
  | challengeById (challengeId : ChallengeId)
  | createEmailChallenge (challenge : AuthChallenge) (maxLive : ℕ)
  | recordChallengeFailure (challengeId : ChallengeId) (now : Time) (maxAttempts : ℕ)
  | completeEmailChallenge (challengeId : ChallengeId) (now : Time) (maxAttempts : ℕ)
      (newAccount : Account) (newSession : AuthSession)
  | createSession (session : AuthSession)
  | session (accountId : AccountId) (sessionId : SessionId)
  | listSessions (accountId : AccountId)
  | touchSession (accountId : AccountId) (sessionId : SessionId) (lastSeenAt expiresAt : Time)
  | revokeSession (accountId : AccountId) (sessionId : SessionId) (revokedAt : Time)
  | revokeAllSessions (accountId : AccountId) (revokedAt : Time)
  | deleteSession (accountId : AccountId) (sessionId : SessionId)
  | passkeyByCredentialId (credentialId : String)
  | completePasskeySignIn (challengeId : ChallengeId) (passkey : PasskeyCredential)
      (session : AuthSession) (now : Time)
  | apiKey (accountId : AccountId) (keyId : ApiKeyId)
  | touchApiKey (accountId : AccountId) (keyId : ApiKeyId) (lastUsedAt : Time)
  | revokeApiKey (accountId : AccountId) (keyId : ApiKeyId) (revokedAt : Time)
  | purgeExpired (now : Time)

@[reducible] def IdentityCall.Result : IdentityCall → Type
  | .accountById _ => Option Account
  | .challengeById _ => Option AuthChallenge
  | .createEmailChallenge .. => Unit
  | .recordChallengeFailure .. => Option AuthChallenge
  | .completeEmailChallenge .. => Option CompletedEmailSignIn
  | .createSession _ => Unit
  | .session .. => Option AuthSession
  | .listSessions _ => List AuthSession
  | .touchSession .. => Bool
  | .revokeSession .. => Bool
  | .revokeAllSessions .. => ℕ
  | .deleteSession .. => Unit
  | .passkeyByCredentialId _ => Option PasskeyCredential
  | .completePasskeySignIn .. => Option CompletedPasskeySignIn
  | .apiKey .. => Option ApiKey
  | .touchApiKey .. => Bool
  | .revokeApiKey .. => Bool
  | .purgeExpired _ => ℕ

/-- The session a call would insert. -/
def IdentityCall.newSession? : IdentityCall → Option AuthSession
  | .completeEmailChallenge _ _ _ _ newSession => some newSession
  | .createSession newSession => some newSession
  | .completePasskeySignIn _ _ newSession _ => some newSession
  | _ => none

end SeizaServer
