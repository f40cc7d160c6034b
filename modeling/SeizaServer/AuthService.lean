import SeizaServer.IdentityModel
import SeizaServer.InterleavedPrograms

/-!
# The sign-in service

The methods of `AuthService` that create and use sessions, as programs over
the calls of the identity boundary.  Digests, the address syntax and the WebAuthn
library are parameters.
-/

namespace SeizaServer

open Interaction

def challengeLifetime : Time := minutes 10

def challengeResendDelay : Time := minutes 1

def maxLiveEmailChallenges : ℕ := 3

def maxChallengeAttempts : ℕ := 5

def sessionIdleLifetime : Time := days 30

def sessionAbsoluteLifetime : Time := days 90

def sessionTouchInterval : Time := minutes 15

def apiKeyTouchInterval : Time := minutes 15

def maxLiveAstrometrySessionsPerKey : ℕ := 20

def scopeSolveSubmit : String := "solve:submit"

inductive AuthError where
  | invalidEmail
  | invalidCredential
  | rateLimited (retryAfter : ℕ)
  | delivery (cause : Fault)
  | internal (cause : Fault)
  deriving DecidableEq, Repr

structure SignInEmail where
  recipient : String
  linkToken : String
  code : String

/-! ## Requests -/

inductive AuthRequest where
  | utcNow
  | nowV7
  | randomSecret
  | randomCode
  | checkEmailSend (source email : String)
  | sendSignIn (email : SignInEmail)
  | repository (call : IdentityCall)

@[reducible] def AuthRequest.Response : AuthRequest → Type
  | .utcNow => Time
  | .nowV7 => Uuid
  | .randomSecret => Except Fault String
  | .randomCode => Except Fault String
  | .checkEmailSend .. => Except ℕ Unit
  | .sendSignIn _ => Except Fault Unit
  | .repository call => Except Fault call.Result

abbrev AuthProgram := Program AuthRequest AuthRequest.Response AuthError

namespace Auth

def utcNow : AuthProgram Time := .request .utcNow .done

def nowV7 : AuthProgram Uuid := .request .nowV7 .done

/-- `map_err(AuthError::Internal)?`. -/
def internal {α : Type} : Except Fault α → AuthProgram α
  | .ok value => .done value
  | .error cause => .fault (.internal cause)

/-- `ok_or(AuthError::InvalidCredential)?`. -/
def orInvalid {α : Type} : Option α → AuthProgram α
  | some value => .done value
  | none => .fault .invalidCredential

def randomSecret : AuthProgram String := .request .randomSecret internal

def randomCode : AuthProgram String := .request .randomCode internal

def repository (call : IdentityCall) : AuthProgram call.Result :=
  .request (.repository call) internal

end Auth

/-! ## Tokens -/

/-- What the service takes from other code. -/
structure AuthConfig where
  /-- `Uuid::parse_str`. -/
  parseStr : String → Option Uuid
  /-- `trim` and `to_lowercase`. -/
  trimLowercase : String → String
  isEmailAddress : String → Bool
  secretDigest : String → String
  /-- With the pepper of the deployment. -/
  codeDigest : ChallengeId → String → String

/-- `splitn`: at most this many pieces. -/
def splitAtMost (separator : Char) : ℕ → List Char → List (List Char)
  | 0, _ => []
  | 1, chars => [chars]
  | count + 2, chars =>
      match chars.dropWhile fun c => c ≠ separator with
      | [] => [chars]
      | _ :: rest => (chars.takeWhile fun c => c ≠ separator) :: splitAtMost separator (count + 1) rest

def formatPrefixedToken (kind : String) (ids : List Uuid) (secret : String) : String :=
  "seiza_" ++ kind ++ ids.foldl (fun token id => token ++ "_" ++ uuidText id) "" ++ "_" ++ secret

namespace AuthConfig

variable (config : AuthConfig)

def parsePrefixedToken (count : ℕ) (kind token : String) : Option (List Uuid × String) :=
  match splitAtMost '_' (3 + count) token.toList with
  | [] => none
  | product :: rest =>
      if String.ofList product ≠ "seiza" then none
      else
        match rest with
        | [] => none
        | named :: components =>
            if String.ofList named ≠ kind then none
            else
              match ((components.take count).mapM fun component =>
                  config.parseStr (String.ofList component)), components[count]? with
              | some ids, some secret =>
                  if ids.length = count ∧ secret ≠ [] then some (ids, String.ofList secret)
                  else none
              | _, _ => none

def parseLoginToken (token : String) : Option (ChallengeId × String) :=
  match config.parsePrefixedToken 1 "login" token with
  | some ([challengeId], secret) => some (challengeId, secret)
  | _ => none

def parseSessionToken (token : String) : Option (AccountId × SessionId × String) :=
  match config.parsePrefixedToken 2 "session" token with
  | some ([accountId, sessionId], secret) => some (accountId, sessionId, secret)
  | _ => none

def parseApiKeyToken (token : String) : Option (AccountId × ApiKeyId × String) :=
  match config.parsePrefixedToken 2 "key" token with
  | some ([accountId, keyId], secret) => some (accountId, keyId, secret)
  | _ => none

def normalizeEmail (value : String) : Option String :=
  if config.isEmailAddress (config.trimLowercase value) then some (config.trimLowercase value)
  else none

end AuthConfig

/-! ## Signing in with an email -/

inductive EmailCredential where
  | linkToken (token : String)
  | code (email : String) (challengeId : ChallengeId) (code : String)

inductive CandidateCredential where
  | link (secret : String)
  | code (email code : String)

structure EmailStart where
  challengeId : ChallengeId
  resendAt : Time

structure CompletedBrowserSignIn where
  completion : CompletedEmailSignIn
  sessionToken : String
  csrfToken : String

namespace AuthConfig

variable (config : AuthConfig)

/-- The challenge `start_email` stores. -/
def emailChallenge (now : Time) (challengeId : ChallengeId) (email linkSecret code : String) :
    AuthChallenge where
  id := challengeId
  purpose := .emailLogin
  accountId := none
  emailLookup := some email
  linkTokenDigest := some (config.secretDigest linkSecret)
  codeDigest := some (config.codeDigest challengeId code)
  webauthnStateJson := none
  attempts := 0
  createdAt := now
  expiresAt := now + challengeLifetime
  consumedAt := none

def startEmail (email source : String) : AuthProgram EmailStart :=
  match config.normalizeEmail email with
  | none => .fault .invalidEmail
  | some email => .request (.checkEmailSend source email) fun checked =>
      match checked with
      | .error retryAfter => .fault (.rateLimited retryAfter)
      | .ok () => do
          let now ← Auth.utcNow
          let challengeId ← Auth.nowV7
          let linkSecret ← Auth.randomSecret
          let code ← Auth.randomCode
          let challenge := config.emailChallenge now challengeId email linkSecret code
          let _ ← Auth.repository (.createEmailChallenge challenge maxLiveEmailChallenges)
          let linkToken := formatPrefixedToken "login" [challengeId] linkSecret
          .request (.sendSignIn ⟨email, linkToken, code⟩) fun sent =>
            match sent with
            | .error cause => .fault (.delivery cause)
            | .ok () => .done ⟨challengeId, now + challengeResendDelay⟩

/-- The challenge and the credential that a request names. -/
def candidate : EmailCredential → Option (ChallengeId × CandidateCredential)
  | .linkToken token => (config.parseLoginToken token).map fun parsed => (parsed.1, .link parsed.2)
  | .code email challengeId code =>
      match config.normalizeEmail email with
      | none => none
      | some email =>
          if code.length ≠ 8 ∨ ¬ code.toList.all Char.isDigit then none
          else some (challengeId, .code email code)

/-- The comparison with the digests of a challenge. -/
def valid (challengeId : ChallengeId) (challenge : AuthChallenge) (emailLookup : String) :
    CandidateCredential → Bool
  | .link secret => challenge.linkTokenDigest.any fun digest => digest = config.secretDigest secret
  | .code email code => emailLookup = email &&
      challenge.codeDigest.any fun digest => digest = config.codeDigest challengeId code

/-- The account a first sign-in creates. -/
def newAccount (accountId : AccountId) (emailLookup : String) (now : Time) : Account where
  id := accountId
  email := emailLookup
  emailLookup := emailLookup
  emailVerifiedAt := now
  webauthnUserHandle := uuidText accountId
  status := .active
  createdAt := now
  updatedAt := now
  lastAuthenticatedAt := now

/-- The session of `new_browser_session`. -/
def browserSession (sessionId : SessionId) (accountId : AccountId) (now : Time)
    (sessionSecret csrfToken : String) : AuthSession where
  id := sessionId
  tokenDigest := config.secretDigest sessionSecret
  accountId := accountId
  kind := .browser
  csrfDigest := some (config.secretDigest csrfToken)
  apiKeyId := none
  createdAt := now
  lastSeenAt := now
  expiresAt := now + sessionIdleLifetime
  absoluteExpiresAt := now + sessionAbsoluteLifetime
  revokedAt := none

def newBrowserSession (accountId : AccountId) (now : Time) :
    AuthProgram (AuthSession × String × String) := do
  let sessionSecret ← Auth.randomSecret
  let csrfToken ← Auth.randomSecret
  let sessionId ← Auth.nowV7
  return (config.browserSession sessionId accountId now sessionSecret csrfToken, sessionSecret,
    csrfToken)

def completeEmail (credential : EmailCredential) : AuthProgram CompletedBrowserSignIn := do
  let now ← Auth.utcNow
  let (challengeId, candidate) ← Auth.orInvalid (config.candidate credential)
  let found ← Auth.repository (.challengeById challengeId)
  let challenge ← Auth.orInvalid found
  if challenge.purpose ≠ .emailLogin ∨ challenge.consumedAt.isSome ∨ challenge.expiresAt ≤ now ∨
      maxChallengeAttempts ≤ challenge.attempts then
    .fault .invalidCredential
  else
    let emailLookup ← Auth.orInvalid challenge.emailLookup
    if config.valid challengeId challenge emailLookup candidate then
      let accountId ← Auth.nowV7
      let account := newAccount accountId emailLookup now
      let (session, sessionSecret, csrfToken) ← config.newBrowserSession accountId now
      let completed ← Auth.repository
        (.completeEmailChallenge challengeId now maxChallengeAttempts account session)
      let completion ← Auth.orInvalid completed
      return ⟨completion, formatPrefixedToken "session"
        [completion.account.id, completion.session.id] sessionSecret, csrfToken⟩
    else
      let _ ← Auth.repository (.recordChallengeFailure challengeId now maxChallengeAttempts)
      .fault .invalidCredential

end AuthConfig

/-! ## Signing in with a passkey -/

/-- What the WebAuthn library makes of a credential: whose it claims to be, and
with the stored state and credential the updated credential, if it verifies. -/
structure WebauthnAssertion where
  identified : Option (AccountId × String)
  finish : String → String → Except AuthError String

structure CompletedPasskeyBrowserSignIn where
  completed : CompletedPasskeySignIn
  sessionToken : String
  csrfToken : String

namespace AuthConfig

variable (config : AuthConfig)

def completePasskeyAuthentication (challengeId : ChallengeId) (assertion : WebauthnAssertion) :
    AuthProgram CompletedPasskeyBrowserSignIn := do
  let now ← Auth.utcNow
  let found ← Auth.repository (.challengeById challengeId)
  let challenge ← Auth.orInvalid (found.filter fun challenge =>
    challenge.purpose = .passkeyAuthentication && challenge.accountId.isNone &&
      challenge.consumedAt.isNone && now < challenge.expiresAt)
  let state ← Auth.orInvalid challenge.webauthnStateJson
  let (accountId, credentialId) ← Auth.orInvalid assertion.identified
  let stored ← Auth.repository (.passkeyByCredentialId credentialId)
  let persisted ← Auth.orInvalid (stored.filter fun passkey =>
    passkey.accountId = accountId && passkey.revokedAt.isNone)
  match assertion.finish state persisted.credentialJson with
  | .error cause => .fault cause
  | .ok credentialJson => do
      let now ← Auth.utcNow
      let (session, sessionSecret, csrfToken) ← config.newBrowserSession accountId now
      let signedIn ← Auth.repository (.completePasskeySignIn challengeId
        { persisted with credentialJson := credentialJson } session now)
      let completed ← Auth.orInvalid signedIn
      return ⟨completed, formatPrefixedToken "session"
        [completed.account.id, completed.session.id] sessionSecret, csrfToken⟩

end AuthConfig

/-! ## Using sessions and keys -/

structure AuthenticatedBrowserSession where
  account : Account
  session : AuthSession
  csrfToken : Option String

structure AuthenticatedApiKey where
  account : Account
  apiKey : ApiKey

structure AuthenticatedAstrometrySession where
  account : Account
  session : AuthSession
  queueWeight : ℚ

structure CreatedAstrometrySession where
  token : String
  account : Account
  session : AuthSession

/-- The session was neither revoked nor has it expired. -/
def AuthSession.live (session : AuthSession) (now : Time) : Bool :=
  session.revokedAt.isNone && now < session.expiresAt && now < session.absoluteExpiresAt

/-- The key was neither revoked nor has it expired. -/
def ApiKey.live (key : ApiKey) (now : Time) : Bool :=
  key.revokedAt.isNone && key.expiresAt.all fun expires => now < expires

/-- The account, unless it is missing or disabled. -/
def activeAccount (accountId : AccountId) : AuthProgram Account := do
  let found ← Auth.repository (.accountById accountId)
  Auth.orInvalid (found.filter fun account => account.status = .active)

/-- Renew the idle expiry of a session, at most once per interval. -/
def touch (session : AuthSession) (accountId : AccountId) (sessionId : SessionId) (now : Time) :
    AuthProgram AuthSession :=
  if sessionTouchInterval ≤ now - session.lastSeenAt then do
    let expiresAt := min (now + sessionIdleLifetime) session.absoluteExpiresAt
    let touched ← Auth.repository (.touchSession accountId sessionId now expiresAt)
    return if touched then { session with lastSeenAt := now, expiresAt := expiresAt } else session
  else .done session

/-- Record the use of a key, at most once per interval; a failure is only
logged. -/
def touchKey (key : ApiKey) (accountId : AccountId) (keyId : ApiKeyId) (now : Time) :
    AuthProgram ApiKey :=
  if key.lastUsedAt.all fun lastUsedAt => apiKeyTouchInterval ≤ now - lastUsedAt then
    .request (.repository (.touchApiKey accountId keyId now)) fun touched =>
      .done (if touched = .ok true then { key with lastUsedAt := some now } else key)
  else .done key

namespace AuthConfig

variable (config : AuthConfig)

def authenticateBrowserSession (token : String) (csrfCookie : Option String) :
    AuthProgram AuthenticatedBrowserSession := do
  let (accountId, sessionId, secret) ← Auth.orInvalid (config.parseSessionToken token)
  let now ← Auth.utcNow
  let found ← Auth.repository (.session accountId sessionId)
  let session ← Auth.orInvalid (found.filter fun session =>
    session.kind = .browser && session.live now &&
      session.tokenDigest = config.secretDigest secret)
  let account ← activeAccount accountId
  let session ← touch session accountId sessionId now
  return ⟨account, session, csrfCookie.filter fun cookie =>
    session.csrfDigest.any fun digest => digest = config.secretDigest cookie⟩

def logout (authenticated : AuthenticatedBrowserSession) : AuthProgram Unit := do
  let now ← Auth.utcNow
  let _ ← Auth.repository
    (.revokeSession authenticated.account.id authenticated.session.id now)
  return ()

def logoutAll (authenticated : AuthenticatedBrowserSession) : AuthProgram ℕ := do
  let now ← Auth.utcNow
  Auth.repository (.revokeAllSessions authenticated.account.id now)

def authenticateApiKey (token requiredScope : String) : AuthProgram AuthenticatedApiKey := do
  let (accountId, keyId, secret) ← Auth.orInvalid (config.parseApiKeyToken token)
  let now ← Auth.utcNow
  let found ← Auth.repository (.apiKey accountId keyId)
  let key ← Auth.orInvalid (found.filter fun key =>
    key.live now && key.scopes.contains requiredScope &&
      key.secretDigest = config.secretDigest secret)
  let account ← activeAccount accountId
  let key ← touchKey key accountId keyId now
  return ⟨account, key⟩

/-- The sessions that recycling considers, the oldest first. -/
def recyclable (sessions : List AuthSession) (keyId : ApiKeyId) (now : Time) : List AuthSession :=
  (sessions.filter fun session => session.kind = .astrometry &&
    session.apiKeyId = some keyId && session.live now).mergeSort
      fun first second => first.createdAt ≤ second.createdAt

def deleteEach (accountId : AccountId) : List AuthSession → AuthProgram Unit
  | [] => .done ()
  | session :: rest => do
      let _ ← Auth.repository (.deleteSession accountId session.id)
      deleteEach accountId rest

def recycleAstrometrySessions (authenticated : AuthenticatedApiKey) (now : Time) :
    AuthProgram Unit := do
  let sessions ← Auth.repository (.listSessions authenticated.account.id)
  let live := recyclable sessions authenticated.apiKey.id now
  let excess := live.length + 1 - maxLiveAstrometrySessionsPerKey
  if live.length < maxLiveAstrometrySessionsPerKey then return ()
  else deleteEach authenticated.account.id (live.take excess)

def astrometrySession (sessionId : SessionId) (authenticated : AuthenticatedApiKey) (now : Time)
    (secret : String) : AuthSession where
  id := sessionId
  tokenDigest := config.secretDigest secret
  accountId := authenticated.account.id
  kind := .astrometry
  csrfDigest := none
  apiKeyId := some authenticated.apiKey.id
  createdAt := now
  lastSeenAt := now
  expiresAt := now + sessionIdleLifetime
  absoluteExpiresAt := now + sessionAbsoluteLifetime
  revokedAt := none

def createAstrometrySession (apiKeyToken : String) : AuthProgram CreatedAstrometrySession := do
  let authenticated ← config.authenticateApiKey apiKeyToken scopeSolveSubmit
  let now ← Auth.utcNow
  recycleAstrometrySessions authenticated now
  let secret ← Auth.randomSecret
  let sessionId ← Auth.nowV7
  let session := config.astrometrySession sessionId authenticated now secret
  let _ ← Auth.repository (.createSession session)
  return ⟨formatPrefixedToken "session" [authenticated.account.id, session.id] secret,
    authenticated.account, session⟩

/-- The live queue weight of the key that minted a session. -/
def mintingKeyWeight (session : AuthSession) (accountId : AccountId) (now : Time) :
    AuthProgram ℚ :=
  match session.apiKeyId with
  | none => .done 1
  | some keyId => do
      let found ← Auth.repository (.apiKey accountId keyId)
      let key ← Auth.orInvalid (found.filter fun key => key.live now)
      let _ ← touchKey key accountId keyId now
      return key.queueWeight

def authenticateAstrometrySession (token : String) :
    AuthProgram AuthenticatedAstrometrySession := do
  let (accountId, sessionId, secret) ← Auth.orInvalid (config.parseSessionToken token)
  let now ← Auth.utcNow
  let found ← Auth.repository (.session accountId sessionId)
  let session ← Auth.orInvalid (found.filter fun session =>
    session.kind = .astrometry && session.live now &&
      session.tokenDigest = config.secretDigest secret)
  let account ← activeAccount accountId
  let queueWeight ← mintingKeyWeight session accountId now
  let session ← touch session accountId sessionId now
  return ⟨account, session, queueWeight⟩

end AuthConfig

/-- One round of the sweep of expired records. -/
def purgeExpired : AuthProgram ℕ := do
  let now ← Auth.utcNow
  Auth.repository (.purgeExpired now)

/-! ## Calls -/

/-- A call of the service, or of the repository by a handler or a sweep. -/
inductive AuthCall where
  | startEmail (email source : String)
  | completeEmail (credential : EmailCredential)
  | completePasskeyAuthentication (challengeId : ChallengeId) (assertion : WebauthnAssertion)
  | authenticateBrowserSession (token : String) (csrfCookie : Option String)
  | logout (authenticated : AuthenticatedBrowserSession)
  | logoutAll (authenticated : AuthenticatedBrowserSession)
  | authenticateApiKey (token requiredScope : String)
  | createAstrometrySession (apiKeyToken : String)
  | authenticateAstrometrySession (token : String)
  | purgeExpired
  | repository (call : IdentityCall)

@[reducible] def AuthCall.Result : AuthCall → Type
  | .startEmail .. => EmailStart
  | .completeEmail _ => CompletedBrowserSignIn
  | .completePasskeyAuthentication .. => CompletedPasskeyBrowserSignIn
  | .authenticateBrowserSession .. => AuthenticatedBrowserSession
  | .logout _ => Unit
  | .logoutAll _ => ℕ
  | .authenticateApiKey .. => AuthenticatedApiKey
  | .createAstrometrySession _ => CreatedAstrometrySession
  | .authenticateAstrometrySession _ => AuthenticatedAstrometrySession
  | .purgeExpired => ℕ
  | .repository call => call.Result

def AuthCall.program (config : AuthConfig) : (call : AuthCall) → AuthProgram call.Result
  | .startEmail email source => config.startEmail email source
  | .completeEmail credential => config.completeEmail credential
  | .completePasskeyAuthentication challengeId assertion =>
      config.completePasskeyAuthentication challengeId assertion
  | .authenticateBrowserSession token csrfCookie =>
      config.authenticateBrowserSession token csrfCookie
  | .logout authenticated => AuthConfig.logout authenticated
  | .logoutAll authenticated => AuthConfig.logoutAll authenticated
  | .authenticateApiKey token requiredScope => config.authenticateApiKey token requiredScope
  | .createAstrometrySession apiKeyToken => config.createAstrometrySession apiKeyToken
  | .authenticateAstrometrySession token => config.authenticateAstrometrySession token
  | .purgeExpired => SeizaServer.purgeExpired
  | .repository call => Auth.repository call

end SeizaServer
