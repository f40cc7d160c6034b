import SeizaServer.SessionLifetime

/-!
# Sessions that are used stay accepted

An authentication that runs alone succeeds exactly when its session, account
and key allow it, and renews the session.  What it leaves behind holds until
the session is revoked, deleted or idle for too long.
-/

namespace SeizaServer

open Interaction Transition

/-- A call that authenticates a session of this kind with this token. -/
inductive AuthCall.Authenticates : AuthCall → SessionKind → String → Prop where
  | browser (token : String) (csrfCookie : Option String) :
      Authenticates (.authenticateBrowserSession token csrfCookie) .browser token
  | astrometry (token : String) :
      Authenticates (.authenticateAstrometrySession token) .astrometry token

/-! ## One authentication alone -/

/-- The answers to an authentication that runs alone while the database
works. -/
def answerAlone (world : IdentityWorld) :
    (r : AuthRequest) → Except AuthError (IdentityWorld × r.Response)
  | .utcNow => .ok (world, world.clock)
  | .repository (.accountById accountId) => .ok (world, .ok (world.db.accounts.find? accountId))
  | .repository (.session accountId sessionId) =>
      .ok (world, .ok (world.db.session accountId sessionId))
  | .repository (.apiKey accountId keyId) => .ok (world, .ok (world.db.apiKey accountId keyId))
  | .repository (.touchSession accountId sessionId lastSeenAt expiresAt) =>
      let touched := world.db.touchSession accountId sessionId lastSeenAt expiresAt
      .ok (world.written touched.2, .ok touched.1)
  | .repository (.touchApiKey accountId keyId lastUsedAt) =>
      let touched := world.db.touchApiKey accountId keyId lastUsedAt
      .ok (world.written touched.2, .ok touched.1)
  | _ => .error (.internal (.bail "not a request of an authentication"))

/-- These answers are answers of the store. -/
theorem serves_answerAlone {world after : IdentityWorld} {r : AuthRequest} {reply : r.Response}
    (hanswer : answerAlone world r = .ok (after, reply)) (pid : ℕ) :
    IdentityWorld.Serves pid world r reply after := by
  cases r with
  | utcNow =>
      cases hanswer
      exact ⟨rfl, rfl⟩
  | repository call =>
      cases call with
      | accountById accountId =>
          cases hanswer
          exact ⟨_, .inl ⟨rfl, rfl⟩, (IdentityWorld.written_self _).symm⟩
      | session accountId sessionId =>
          cases hanswer
          exact ⟨_, .inl ⟨rfl, rfl⟩, (IdentityWorld.written_self _).symm⟩
      | apiKey accountId keyId =>
          cases hanswer
          exact ⟨_, .inl ⟨rfl, rfl⟩, (IdentityWorld.written_self _).symm⟩
      | touchSession accountId sessionId lastSeenAt expiresAt =>
          cases hanswer
          exact ⟨_, .inl ⟨rfl, rfl⟩, rfl⟩
      | touchApiKey accountId keyId lastUsedAt =>
          cases hanswer
          exact ⟨_, .inl ⟨rfl, rfl⟩, rfl⟩
      | _ => cases hanswer
  | _ => cases hanswer

/-- The world after a session was touched, if it was due. -/
def IdentityWorld.renewed (world : IdentityWorld) (session : AuthSession) (accountId : AccountId)
    (sessionId : SessionId) (now : Time) : IdentityWorld :=
  if sessionTouchInterval ≤ now - session.lastSeenAt then
    world.written (world.db.touchSession accountId sessionId now
      (min (now + sessionIdleLifetime) session.absoluteExpiresAt)).2
  else world

theorem exec_touch (session : AuthSession) (accountId : AccountId) (sessionId : SessionId)
    (now : Time) (world : IdentityWorld) :
    ∃ touched, (touch session accountId sessionId now).exec answerAlone world =
      (world.renewed session accountId sessionId now, .ok touched) := by
  unfold touch IdentityWorld.renewed
  split_ifs
  · exact ⟨_, rfl⟩
  · exact ⟨_, rfl⟩

/-- The world after a key may have been touched. -/
inductive IdentityWorld.KeyTouched (world : IdentityWorld) : IdentityWorld → Prop where
  | kept : KeyTouched world world
  | touched (accountId : AccountId) (keyId : ApiKeyId) (now : Time) :
      KeyTouched world (world.written (world.db.touchApiKey accountId keyId now).2)

theorem exec_touchKey (key : ApiKey) (accountId : AccountId) (keyId : ApiKeyId) (now : Time)
    (world : IdentityWorld) :
    ∃ after touched, (touchKey key accountId keyId now).exec answerAlone world =
      (after, .ok touched) ∧ world.KeyTouched after := by
  unfold touchKey
  split_ifs
  · exact ⟨_, _, rfl, .touched accountId keyId now⟩
  · exact ⟨_, _, rfl, .kept⟩

/-- The key that minted a session can be used, if there is one. -/
def IdentityWorld.KeyUsable (world : IdentityWorld) (accountId : AccountId)
    (session : AuthSession) : Prop :=
  ∀ keyId, session.apiKeyId = some keyId →
    ∃ key, world.db.apiKey accountId keyId = some key ∧ key.live world.clock = true

theorem exec_mintingKeyWeight (session : AuthSession) (accountId : AccountId)
    (world : IdentityWorld) :
    (world.KeyUsable accountId session ∧ ∃ after weight,
      (AuthConfig.mintingKeyWeight session accountId world.clock).exec answerAlone world =
        (after, .ok weight) ∧ world.KeyTouched after) ∨
    (¬ world.KeyUsable accountId session ∧ ∃ cause,
      (AuthConfig.mintingKeyWeight session accountId world.clock).exec answerAlone world =
        (world, .error cause)) := by
  unfold AuthConfig.mintingKeyWeight
  cases hkey : session.apiKeyId with
  | none =>
      refine .inl ⟨?_, world, 1, rfl, .kept⟩
      intro keyId hsome
      rw [hkey] at hsome
      cases hsome
  | some keyId =>
      have hexec : (Auth.repository (.apiKey accountId keyId) >>= fun found =>
          Auth.orInvalid (found.filter fun key => key.live world.clock) >>= fun key =>
            touchKey key accountId keyId world.clock >>= fun _ =>
              (pure key.queueWeight : AuthProgram ℚ)).exec answerAlone world =
          (Auth.orInvalid ((world.db.apiKey accountId keyId).filter fun key =>
            key.live world.clock) >>= fun key => touchKey key accountId keyId world.clock >>=
              fun _ => (pure key.queueWeight : AuthProgram ℚ)).exec answerAlone world := rfl
      change (_ ∧ ∃ after weight, (Auth.repository (.apiKey accountId keyId) >>= _).exec _ _ = _ ∧
        _) ∨ (_ ∧ ∃ cause, (Auth.repository (.apiKey accountId keyId) >>= _).exec _ _ = _)
      rw [hexec]
      cases hfound : (world.db.apiKey accountId keyId).filter fun key => key.live world.clock with
      | none =>
          refine .inr ⟨?_, _, rfl⟩
          intro husable
          obtain ⟨key, hstored, hlive⟩ := husable keyId hkey
          rw [hstored, Option.filter_some, if_pos hlive] at hfound
          cases hfound
      | some key =>
          obtain ⟨hstored, hlive⟩ := Option.filter_eq_some_iff.mp hfound
          left
          constructor
          · intro other hother
            rw [hkey] at hother
            cases hother
            exact ⟨key, hstored, hlive⟩
          · obtain ⟨after, touched, htouched, hkeys⟩ :=
              exec_touchKey key accountId keyId world.clock world
            refine ⟨after, key.queueWeight, ?_, hkeys⟩
            change (touchKey key accountId keyId world.clock >>= _).exec answerAlone world = _
            rw [Program.exec_bind, htouched]
            rfl

/-- What an authentication of a session demands of the world. -/
structure Usable (authConfig : AuthConfig) (kind : SessionKind) (token : String)
    (world : IdentityWorld) (accountId : AccountId) (sessionId : SessionId)
    (session : AuthSession) : Prop where
  parsed : ∃ secret, authConfig.parseSessionToken token = some (accountId, sessionId, secret) ∧
    session.tokenDigest = authConfig.secretDigest secret
  stored : world.db.session accountId sessionId = some session
  ofKind : session.kind = kind
  live : session.live world.clock = true
  active : ∃ account, world.db.accounts.find? accountId = some account ∧ account.status = .active
  key : kind = .astrometry → world.KeyUsable accountId session

theorem exec_activeAccount (accountId : AccountId) (world : IdentityWorld) :
    (activeAccount accountId).exec answerAlone world =
      (Auth.orInvalid ((world.db.accounts.find? accountId).filter fun account =>
        account.status = .active) : AuthProgram Account).exec answerAlone world := rfl

/-- The account check of an authentication. -/
theorem exec_activeAccount_bind {α : Type} (accountId : AccountId) (f : Account → AuthProgram α)
    (world : IdentityWorld) :
    (∃ account, world.db.accounts.find? accountId = some account ∧ account.status = .active ∧
      (activeAccount accountId >>= f).exec answerAlone world = (f account).exec answerAlone world) ∨
    ((¬ ∃ account, world.db.accounts.find? accountId = some account ∧ account.status = .active) ∧
      ∃ cause, (activeAccount accountId >>= f).exec answerAlone world = (world, .error cause)) := by
  rw [Program.exec_bind, exec_activeAccount]
  cases hfound : (world.db.accounts.find? accountId).filter fun account =>
      account.status = .active with
  | none =>
      refine .inr ⟨?_, _, rfl⟩
      intro hactive
      obtain ⟨account, hstored, hstatus⟩ := hactive
      rw [hstored, Option.filter_some, if_pos (by simpa using hstatus)] at hfound
      cases hfound
  | some account =>
      obtain ⟨hstored, hstatus⟩ := Option.filter_eq_some_iff.mp hfound
      exact .inl ⟨account, hstored, by simpa using hstatus, rfl⟩

theorem exec_finishBrowser (authConfig : AuthConfig) (csrfCookie : Option String)
    (accountId : AccountId) (sessionId : SessionId) (session : AuthSession)
    (world : IdentityWorld) :
    ((∃ account, world.db.accounts.find? accountId = some account ∧ account.status = .active) ∧
      ∃ value, (authConfig.finishBrowser csrfCookie accountId sessionId world.clock session).exec
        answerAlone world = (world.renewed session accountId sessionId world.clock, .ok value)) ∨
    ((¬ ∃ account, world.db.accounts.find? accountId = some account ∧ account.status = .active) ∧
      ∃ cause, (authConfig.finishBrowser csrfCookie accountId sessionId world.clock session).exec
        answerAlone world = (world, .error cause)) := by
  unfold AuthConfig.finishBrowser
  cases exec_activeAccount_bind accountId (fun account =>
    touch session accountId sessionId world.clock >>= fun session =>
      (pure ⟨account, session, csrfCookie.filter fun cookie =>
        session.csrfDigest.any fun digest => digest = authConfig.secretDigest cookie⟩ :
          AuthProgram AuthenticatedBrowserSession)) world with
  | inl hactive =>
      obtain ⟨account, hstored, hstatus, hexec⟩ := hactive
      obtain ⟨touched, htouched⟩ := exec_touch session accountId sessionId world.clock world
      refine .inl ⟨⟨account, hstored, hstatus⟩, ?_⟩
      rw [hexec, Program.exec_bind, htouched]
      exact ⟨_, rfl⟩
  | inr hinactive => exact .inr hinactive

theorem exec_finishAstrometry (accountId : AccountId) (sessionId : SessionId)
    (session : AuthSession) (world : IdentityWorld) :
    (((∃ account, world.db.accounts.find? accountId = some account ∧ account.status = .active) ∧
      world.KeyUsable accountId session) ∧ ∃ middle value, world.KeyTouched middle ∧
        (AuthConfig.finishAstrometry accountId sessionId world.clock session).exec answerAlone
          world = (middle.renewed session accountId sessionId world.clock, .ok value)) ∨
    ((¬ ((∃ account, world.db.accounts.find? accountId = some account ∧
        account.status = .active) ∧ world.KeyUsable accountId session)) ∧ ∃ cause,
      (AuthConfig.finishAstrometry accountId sessionId world.clock session).exec answerAlone
        world = (world, .error cause)) := by
  unfold AuthConfig.finishAstrometry
  cases exec_activeAccount_bind accountId (fun account =>
    AuthConfig.mintingKeyWeight session accountId world.clock >>= fun queueWeight =>
      touch session accountId sessionId world.clock >>= fun session =>
        (pure ⟨account, session, queueWeight⟩ : AuthProgram AuthenticatedAstrometrySession))
      world with
  | inl hactive =>
      obtain ⟨account, hstored, hstatus, hexec⟩ := hactive
      cases exec_mintingKeyWeight session accountId world with
      | inl husable =>
          obtain ⟨hkey, middle, weight, hweight, hmiddle⟩ := husable
          obtain ⟨touched, htouched⟩ := exec_touch session accountId sessionId world.clock middle
          have hreturns : ∃ value, (AuthConfig.mintingKeyWeight session accountId world.clock >>=
              fun queueWeight => touch session accountId sessionId world.clock >>= fun session =>
                (pure ⟨account, session, queueWeight⟩ :
                  AuthProgram AuthenticatedAstrometrySession)).exec answerAlone world =
              (middle.renewed session accountId sessionId world.clock, .ok value) := by
            rw [Program.exec_bind, hweight]
            dsimp only
            rw [Program.exec_bind, htouched]
            exact ⟨_, rfl⟩
          obtain ⟨value, hvalue⟩ := hreturns
          exact .inl ⟨⟨⟨account, hstored, hstatus⟩, hkey⟩, middle, value, hmiddle,
            hexec.trans hvalue⟩
      | inr hrefused =>
          obtain ⟨hkey, cause, hweight⟩ := hrefused
          refine .inr ⟨fun hall => hkey hall.2, cause, hexec.trans ?_⟩
          rw [Program.exec_bind, hweight]
  | inr hinactive =>
      obtain ⟨hnone, hexec⟩ := hinactive
      exact .inr ⟨fun hall => hnone hall.1, hexec⟩

theorem exec_authenticateParsed {authConfig : AuthConfig} {α : Type} {kind : SessionKind}
    (finish : AccountId → SessionId → Time → AuthSession → AuthProgram α) (token : String)
    (world : IdentityWorld) :
    (∃ accountId sessionId session,
      (∃ secret, authConfig.parseSessionToken token = some (accountId, sessionId, secret) ∧
        session.tokenDigest = authConfig.secretDigest secret) ∧
      world.db.session accountId sessionId = some session ∧ session.kind = kind ∧
      session.live world.clock = true ∧
      (Auth.orInvalid (authConfig.parseSessionToken token) >>=
        authConfig.authenticateParsed kind finish).exec answerAlone world =
          (finish accountId sessionId world.clock session).exec answerAlone world) ∨
    ((¬ ∃ accountId sessionId session,
      (∃ secret, authConfig.parseSessionToken token = some (accountId, sessionId, secret) ∧
        session.tokenDigest = authConfig.secretDigest secret) ∧
      world.db.session accountId sessionId = some session ∧ session.kind = kind ∧
      session.live world.clock = true) ∧ ∃ cause,
        (Auth.orInvalid (authConfig.parseSessionToken token) >>=
          authConfig.authenticateParsed kind finish).exec answerAlone world =
            (world, .error cause)) := by
  cases hparsed : authConfig.parseSessionToken token with
  | none =>
      refine .inr ⟨?_, _, rfl⟩
      intro hvalid
      obtain ⟨_, _, _, ⟨_, hsome, _⟩, _⟩ := hvalid
      cases hsome
  | some parsed =>
      obtain ⟨accountId, sessionId, secret⟩ := parsed
      have hexec : (Auth.orInvalid (some (accountId, sessionId, secret)) >>=
          authConfig.authenticateParsed kind finish).exec answerAlone world =
          (Auth.orInvalid ((world.db.session accountId sessionId).filter
            (authConfig.accepts kind world.clock secret)) >>= fun session =>
              finish accountId sessionId world.clock session).exec answerAlone world := rfl
      rw [hexec]
      cases hfound : (world.db.session accountId sessionId).filter
          (authConfig.accepts kind world.clock secret) with
      | none =>
          refine .inr ⟨?_, _, rfl⟩
          intro hvalid
          obtain ⟨_, _, session, ⟨_, hsome, hdigest⟩, hstored, hkind, hlive⟩ := hvalid
          cases hsome
          have haccepts : authConfig.accepts kind world.clock secret session = true := by
            unfold AuthConfig.accepts
            simp [hkind, hlive, hdigest]
          rw [hstored, Option.filter_some, if_pos haccepts] at hfound
          cases hfound
      | some session =>
          obtain ⟨hstored, haccepts⟩ := Option.filter_eq_some_iff.mp hfound
          unfold AuthConfig.accepts at haccepts
          simp only [Bool.and_eq_true, decide_eq_true_eq] at haccepts
          exact .inl ⟨accountId, sessionId, session, ⟨secret, rfl, haccepts.2⟩, hstored,
            haccepts.1.1, haccepts.1.2, rfl⟩

/-- An authentication alone succeeds exactly when the world meets its demands,
and then it may touch the key and renews the session. -/
theorem exec_authenticates {authConfig : AuthConfig} {call : AuthCall} {kind : SessionKind}
    {token : String} (hcall : call.Authenticates kind token) (world : IdentityWorld) :
    (∃ accountId sessionId session, Usable authConfig kind token world accountId sessionId session ∧
      ∃ middle value, world.KeyTouched middle ∧
        (call.program authConfig).exec answerAlone world =
          (middle.renewed session accountId sessionId world.clock, .ok value)) ∨
    ((¬ ∃ accountId sessionId session,
      Usable authConfig kind token world accountId sessionId session) ∧
      ∃ after cause, (call.program authConfig).exec answerAlone world =
        (after, .error cause)) := by
  cases hcall with
  | browser token csrfCookie =>
      change (∃ accountId sessionId session, _ ∧ ∃ middle value, _ ∧
        (authConfig.authenticateBrowserSession token csrfCookie).exec _ _ = _) ∨
          (_ ∧ ∃ after cause,
            (authConfig.authenticateBrowserSession token csrfCookie).exec _ _ = _)
      rw [AuthConfig.authenticateBrowserSession_eq]
      cases exec_authenticateParsed (authConfig.finishBrowser csrfCookie) token world with
      | inl hvalid =>
          obtain ⟨accountId, sessionId, session, hparsed, hstored, hkind, hlive, hexec⟩ := hvalid
          rw [hexec]
          cases exec_finishBrowser authConfig csrfCookie accountId sessionId session world with
          | inl hfinished =>
              obtain ⟨hactive, value, hvalue⟩ := hfinished
              exact .inl ⟨accountId, sessionId, session,
                ⟨hparsed, hstored, hkind, hlive, hactive, nofun⟩, world, value, .kept, hvalue⟩
          | inr hrefused =>
              obtain ⟨hinactive, cause, hcause⟩ := hrefused
              refine .inr ⟨?_, world, cause, hcause⟩
              intro husable
              obtain ⟨otherAccount, otherId, _, husable⟩ := husable
              obtain ⟨secret, hsome, _⟩ := hparsed
              obtain ⟨_, hother, _⟩ := husable.parsed
              rw [hsome, Option.some.injEq] at hother
              cases hother
              exact hinactive husable.active
      | inr hinvalid =>
          obtain ⟨hnone, cause, hexec⟩ := hinvalid
          refine .inr ⟨?_, world, cause, hexec⟩
          intro husable
          obtain ⟨accountId, sessionId, session, husable⟩ := husable
          exact hnone ⟨accountId, sessionId, session, husable.parsed, husable.stored,
            husable.ofKind, husable.live⟩
  | astrometry token =>
      change (∃ accountId sessionId session, _ ∧ ∃ middle value, _ ∧
        (authConfig.authenticateAstrometrySession token).exec _ _ = _) ∨
          (_ ∧ ∃ after cause, (authConfig.authenticateAstrometrySession token).exec _ _ = _)
      rw [AuthConfig.authenticateAstrometrySession_eq]
      cases exec_authenticateParsed AuthConfig.finishAstrometry token world with
      | inl hvalid =>
          obtain ⟨accountId, sessionId, session, hparsed, hstored, hkind, hlive, hexec⟩ := hvalid
          rw [hexec]
          cases exec_finishAstrometry accountId sessionId session world with
          | inl hfinished =>
              obtain ⟨⟨hactive, hkey⟩, middle, value, hmiddle, hvalue⟩ := hfinished
              exact .inl ⟨accountId, sessionId, session,
                ⟨hparsed, hstored, hkind, hlive, hactive, fun _ => hkey⟩, middle, value, hmiddle,
                hvalue⟩
          | inr hrefused =>
              obtain ⟨hinactive, cause, hcause⟩ := hrefused
              refine .inr ⟨?_, world, cause, hcause⟩
              intro husable
              obtain ⟨otherAccount, otherId, other, husable⟩ := husable
              obtain ⟨secret, hsome, _⟩ := hparsed
              obtain ⟨_, hother, _⟩ := husable.parsed
              rw [hsome, Option.some.injEq] at hother
              cases hother
              have hsame := husable.stored
              rw [hstored, Option.some.injEq] at hsame
              subst hsame
              exact hinactive ⟨husable.active, husable.key rfl⟩
      | inr hinvalid =>
          obtain ⟨hnone, cause, hexec⟩ := hinvalid
          refine .inr ⟨?_, world, cause, hexec⟩
          intro husable
          obtain ⟨accountId, sessionId, session, husable⟩ := husable
          exact hnone ⟨accountId, sessionId, session, husable.parsed, husable.stored,
            husable.ofKind, husable.live⟩

/-! ## Until it is ended -/

/-- A revocation of the session or of its key, or its deletion. -/
def Ends (session : AuthSession) :
    Label AuthCall AuthRequest AuthRequest.Response AuthError → Prop
  | .ask _ (.repository call) _ => IdentityDatabase.Revokes call session ∨
      call = .deleteSession session.accountId session.id
  | _ => False

/-- The session as it was, up to its uses, the last of them recent. -/
def AuthSession.RenewedFrom (session origin : AuthSession) (used : Time) : Prop :=
  session = { origin with lastSeenAt := session.lastSeenAt, expiresAt := session.expiresAt } ∧
    used - sessionTouchInterval < session.lastSeenAt

/-- What an authentication needs besides time. -/
structure Renewed (used : Time) (origin : AuthSession) (world : IdentityWorld) : Prop where
  row : ∃ session, world.db.authSessions.find? origin.id = some session ∧
    session.RenewedFrom origin used
  active : ∃ account, world.db.accounts.find? origin.accountId = some account ∧
    account.status = .active
  key : ∀ keyId, origin.kind = .astrometry → origin.apiKeyId = some keyId →
    ∃ key, world.db.apiKey origin.accountId keyId = some key ∧ key.revokedAt = none ∧
      key.expiresAt = none

/-- Until when a session that was used then is accepted without further use. -/
def acceptedUntil (used : Time) (session : AuthSession) : Time :=
  min (used + sessionIdleLifetime - sessionTouchInterval)
    (session.createdAt + sessionAbsoluteLifetime)

theorem live_of_renewed {session origin : AuthSession} {used now : Time}
    (hrenewed : session.RenewedFrom origin used) (hlawful : session.Lawful)
    (hunrevoked : origin.revokedAt = none) (hnow : now < acceptedUntil used origin) :
    session.live now = true := by
  obtain ⟨hsession, hrecent⟩ := hrenewed
  have hrevoked : session.revokedAt = none := by
    rw [hsession]
    exact hunrevoked
  have hcreated : session.createdAt = origin.createdAt := by rw [hsession]
  obtain ⟨hidle, habsolute⟩ := lt_min_iff.mp hnow
  have hbeforeAbsolute : now < session.absoluteExpiresAt := by
    rw [hlawful.2, hcreated]
    exact habsolute
  have hbeforeIdle : now < session.expiresAt := by
    rw [hlawful.1, lt_min_iff]
    exact ⟨by linarith, hbeforeAbsolute⟩
  unfold AuthSession.live
  simp [hrevoked, hbeforeIdle, hbeforeAbsolute]

section Steps

variable {scope : IdentityScope} {used : Time} {origin : AuthSession} {before after : IdentityWorld}
  {label : Label AuthCall AuthRequest AuthRequest.Response AuthError}

/-- A live session is neither deleted by a sweep nor touched with an old
reading. -/
theorem Renewed.row_step (hrenewed : Renewed used origin before) (hsound : before.Sound used)
    (hunrevoked : origin.revokedAt = none) (htime : before.clock < acceptedUntil used origin)
    {pid : ℕ} {call : IdentityCall} {reply : Except Fault call.Result} {db : IdentityDatabase}
    (hallows : before.Allows used pid (.repository call))
    (hanswers : before.db.Answers call reply db)
    (hgoes : ¬ Ends origin (.ask pid (.repository call) reply)) :
    ∃ session, db.authSessions.find? origin.id = some session ∧
      session.RenewedFrom origin used := by
  obtain ⟨session, hfind, hsession, hrecent⟩ := hrenewed.row
  have hid : session.id = origin.id := by rw [hsession]
  have haccount : session.accountId = origin.accountId := by rw [hsession]
  have hkey : session.apiKeyId = origin.apiKeyId := by rw [hsession]
  have hlawful := hsound.lawful session (KeyedTable.mem_of_find? hfind)
  have hlive := live_of_renewed ⟨hsession, hrecent⟩ hlawful hunrevoked htime
  unfold AuthSession.live at hlive
  simp only [Bool.and_eq_true, Option.isNone_iff_eq_none, decide_eq_true_eq] at hlive
  obtain ⟨⟨hnotRevoked, hidle⟩, habsolute⟩ := hlive
  rw [← hid] at hfind ⊢
  cases hnext : db.authSessions.find? session.id with
  | none =>
      exfalso
      cases hanswers.session_removed hfind hnext with
      | inl hdeleted =>
          apply hgoes
          right
          rw [← hid, ← haccount]
          exact hdeleted
      | inr hpurged =>
          obtain ⟨now, hcall, hold⟩ := hpurged
          subst hcall
          have hnow : now ≤ before.clock := hallows
          have hmonth : (0 : Time) ≤ days 30 := by
            unfold days minutes
            norm_num
          cases hold with
          | inl hafterAbsolute => exact absurd (hnow.trans_lt habsolute) (not_lt.mpr hafterAbsolute.le)
          | inr hrest =>
              cases hrest with
              | inl hlong => linarith
              | inr hrevoked =>
                  obtain ⟨revokedAt, hsome, _⟩ := hrevoked
                  rw [hnotRevoked] at hsome
                  cases hsome
  | some next =>
      have hnextId := KeyedTable.key_of_find? hnext
      have horigin := hnext
      rw [← hnextId] at horigin
      refine ⟨next, rfl, ?_⟩
      cases hanswers.session_origin horigin with
      | stayed old hold hstep =>
          rw [hnextId, hfind, Option.some.injEq] at hold
          subst hold
          cases hstep with
          | kept => exact ⟨hsession, hrecent⟩
          | revoked revokedAt hcall _ =>
              exfalso
              apply hgoes
              left
              cases call with
              | revokeSession accountId sessionId revokedAt =>
                  exact ⟨haccount.symm.trans hcall.1, hid.symm.trans hcall.2⟩
              | revokeAllSessions accountId revokedAt => exact haccount.symm.trans hcall
              | revokeApiKey accountId keyId revokedAt =>
                  exact ⟨haccount.symm.trans hcall.1, hkey.symm.trans hcall.2⟩
              | _ => exact hcall.elim
          | touched lastSeenAt expiresAt hcall _ _ =>
              subst hcall
              obtain ⟨hsince, _⟩ := hallows
              constructor
              · rw [hsession]
              · change used - sessionTouchInterval < lastSeenAt
                have hinterval : 0 < sessionTouchInterval := by
                  unfold sessionTouchInterval minutes
                  norm_num
                linarith
      | inserted newSession hcall hnew hsame _ =>
          rw [hnextId, hfind] at hnew
          cases hnew

theorem Renewed.step (hrenewed : Renewed used origin before) (hsound : before.Sound used)
    (hunrevoked : origin.revokedAt = none) (hflips : ¬ scope.flips)
    (htime : before.clock < acceptedUntil used origin)
    (hstep : DatabaseStep scope used before after label) (hgoes : ¬ Ends origin label) :
    Renewed used origin after := by
  cases hstep with
  | unchanged hdb hminted hclock =>
      constructor
      · rw [hdb]
        exact hrenewed.row
      · rw [hdb]
        exact hrenewed.active
      · rw [hdb]
        exact hrenewed.key
  | flipped accountId status hallowed hafter => exact absurd hallowed hflips
  | answered pid call reply hallows hanswers hafter =>
      constructor
      · exact hrenewed.row_step hsound hunrevoked htime hallows hanswers hgoes
      · obtain ⟨account, hfind, hstatus⟩ := hrenewed.active
        have hid : account.id = origin.accountId := KeyedTable.key_of_find? hfind
        rw [← hid] at hfind ⊢
        obtain ⟨next, hnext, hkept⟩ := hanswers.account_stays hfind
        refine ⟨next, hnext, ?_⟩
        cases hkept with
        | kept => exact hstatus
        | authenticated now => exact hstatus
      · intro keyId hkind hminting
        obtain ⟨key, hfound, hlive, hexpires⟩ := hrenewed.key keyId hkind hminting
        obtain ⟨hfind, haccount⟩ := Option.filter_eq_some_iff.mp hfound
        rw [decide_eq_true_eq] at haccount
        have hkeyId := KeyedTable.key_of_find? hfind
        have hmoved := hanswers.key_step keyId
        rw [hfind] at hmoved
        cases hnext : after.db.apiKeys.find? keyId with
        | none =>
            rw [hnext] at hmoved
            cases hmoved
        | some next =>
            rw [hnext] at hmoved
            cases hmoved with
            | some hkept =>
                have hread : next.accountId = origin.accountId → next.revokedAt = none →
                    next.expiresAt = none → ∃ key, after.db.apiKey origin.accountId keyId =
                      some key ∧ key.revokedAt = none ∧ key.expiresAt = none := by
                  intro hsame hnotRevoked hforever
                  refine ⟨next, ?_, hnotRevoked, hforever⟩
                  unfold IdentityDatabase.apiKey
                  rw [hnext, Option.filter_some, if_pos (by simpa using hsame)]
                cases hkept with
                | kept => exact hread haccount hlive hexpires
                | touched lastUsedAt _ => exact hread haccount hlive hexpires
                | revoked revokedAt _ hcall =>
                    exfalso
                    apply hgoes
                    left
                    rw [hcall]
                    exact ⟨haccount.symm, by rw [hminting, hkeyId]⟩

end Steps

/-! ## Runs -/

theorem keyTouched_frame {world after : IdentityWorld} (htouched : world.KeyTouched after) :
    after.db.authSessions = world.db.authSessions ∧ after.db.accounts = world.db.accounts := by
  cases htouched with
  | kept => exact ⟨rfl, rfl⟩
  | touched accountId keyId now => exact ⟨rfl, rfl⟩

theorem keyTouched_key {world after : IdentityWorld} (htouched : world.KeyTouched after)
    {accountId : AccountId} {keyId : ApiKeyId} {key : ApiKey}
    (hfound : world.db.apiKey accountId keyId = some key) :
    ∃ next, after.db.apiKey accountId keyId = some next ∧ next.revokedAt = key.revokedAt ∧
      next.expiresAt = key.expiresAt := by
  cases htouched with
  | kept => exact ⟨key, hfound, rfl, rfl⟩
  | touched account id now =>
      obtain ⟨hfind, haccount⟩ := Option.filter_eq_some_iff.mp hfound
      change ∃ next, ((world.db.apiKeys.modify _ _ (by intro; rfl)).find? keyId).filter _ = some next ∧ _
      rw [KeyedTable.find?_modify, hfind, Option.map_some]
      split_ifs
      · refine ⟨{ key with lastUsedAt := some now }, ?_, rfl, rfl⟩
        rw [Option.filter_some]
        exact if_pos haccount
      · exact ⟨key, by rw [Option.filter_some, if_pos haccount], rfl, rfl⟩

/-- A successful authentication renews its session. -/
theorem renewed_of_usable {authConfig : AuthConfig} {kind : SessionKind} {token : String}
    {world middle : IdentityWorld} {accountId : AccountId} {sessionId : SessionId}
    {session : AuthSession}
    (husable : Usable authConfig kind token world accountId sessionId session)
    (hkeys : ∀ key ∈ world.db.apiKeys.rows, key.expiresAt = none)
    (hmiddle : world.KeyTouched middle) :
    Renewed world.clock session (middle.renewed session accountId sessionId world.clock) := by
  obtain ⟨hfind, haccount⟩ := Option.filter_eq_some_iff.mp husable.stored
  rw [decide_eq_true_eq] at haccount
  have hid := KeyedTable.key_of_find? hfind
  obtain ⟨hsessions, haccounts⟩ := keyTouched_frame hmiddle
  have hlive := husable.live
  unfold AuthSession.live at hlive
  simp only [Bool.and_eq_true, Option.isNone_iff_eq_none, decide_eq_true_eq] at hlive
  have hframe : (middle.renewed session accountId sessionId world.clock).db.accounts =
      world.db.accounts ∧
        (middle.renewed session accountId sessionId world.clock).db.apiKeys = middle.db.apiKeys := by
    unfold IdentityWorld.renewed
    split_ifs
    · exact ⟨haccounts, rfl⟩
    · exact ⟨haccounts, rfl⟩
  constructor
  · rw [hid]
    unfold IdentityWorld.renewed
    split_ifs with hdue
    · refine ⟨{ session with
        lastSeenAt := world.clock
        expiresAt := min (world.clock + sessionIdleLifetime) session.absoluteExpiresAt }, ?_, rfl, ?_⟩
      · change (middle.db.authSessions.modify _ _ (by intro; rfl)).find? sessionId = _
        rw [KeyedTable.find?_modify, hsessions, hfind, Option.map_some]
        simp [hid, haccount, hlive.1.1, hlive.2]
      · change world.clock - sessionTouchInterval < world.clock
        unfold sessionTouchInterval minutes
        norm_num
    · refine ⟨session, ?_, rfl, ?_⟩
      · rw [hsessions, hfind]
      · linarith
  · rw [hframe.1, haccount]
    exact husable.active
  · intro keyId hkind hminting
    obtain ⟨key, hfound, hkeyLive⟩ := husable.key (husable.ofKind.symm.trans hkind) keyId hminting
    obtain ⟨next, hnext, hrevoked, hexpires⟩ := keyTouched_key hmiddle hfound
    have hread : (middle.renewed session accountId sessionId world.clock).db.apiKey accountId
        keyId = some next := by
      unfold IdentityDatabase.apiKey
      rw [hframe.2]
      exact hnext
    rw [haccount]
    refine ⟨next, hread, ?_, ?_⟩
    · rw [hrevoked]
      unfold ApiKey.live at hkeyLive
      simp only [Bool.and_eq_true, Option.isNone_iff_eq_none] at hkeyLive
      exact hkeyLive.1
    · rw [hexpires]
      exact hkeys key (KeyedTable.mem_of_find? (Option.filter_eq_some_iff.mp hfound).1)

/-- A renewed session is usable until it has been idle for too long. -/
theorem usable_of_renewed {authConfig : AuthConfig} {kind : SessionKind} {token : String}
    {world later : IdentityWorld} {accountId : AccountId} {sessionId : SessionId}
    {session : AuthSession} {used : Time}
    (husable : Usable authConfig kind token world accountId sessionId session)
    (hrenewed : Renewed used session later) (hsound : later.Sound used)
    (htime : later.clock < acceptedUntil used session) :
    ∃ current, Usable authConfig kind token later accountId sessionId current := by
  obtain ⟨hfind, haccount⟩ := Option.filter_eq_some_iff.mp husable.stored
  rw [decide_eq_true_eq] at haccount
  have hid := KeyedTable.key_of_find? hfind
  have hrevoked : session.revokedAt = none := by
    have hlive := husable.live
    unfold AuthSession.live at hlive
    simp only [Bool.and_eq_true, Option.isNone_iff_eq_none] at hlive
    exact hlive.1.1
  obtain ⟨current, hcurrent, hsame, hrecent⟩ := hrenewed.row
  refine ⟨current, ?_⟩
  constructor
  · obtain ⟨secret, hparsed, hdigest⟩ := husable.parsed
    exact ⟨secret, hparsed, by rw [hsame]; exact hdigest⟩
  · unfold IdentityDatabase.session
    rw [← hid, hcurrent, Option.filter_some, if_pos]
    rw [hsame]
    simpa using haccount
  · rw [hsame]
    exact husable.ofKind
  · exact live_of_renewed ⟨hsame, hrecent⟩ (hsound.lawful current (KeyedTable.mem_of_find? hcurrent))
      hrevoked htime
  · rw [← haccount]
    exact hrenewed.active
  · intro hkind keyId hminting
    have hkeyId : session.apiKeyId = some keyId := by
      rw [hsame] at hminting
      exact hminting
    obtain ⟨key, hfound, hlive, hexpires⟩ :=
      hrenewed.key keyId (husable.ofKind.trans hkind) hkeyId
    rw [haccount] at hfound
    refine ⟨key, hfound, ?_⟩
    unfold ApiKey.live
    rw [hlive, hexpires]
    rfl

section Runs

variable {scope : IdentityScope} {db : IdentityDatabase} {clock : Time}
  {config final : Configuration AuthCall AuthRequest AuthRequest.Response AuthError
    AuthCall.Result IdentityWorld}
  {labels past rest : List (Label AuthCall AuthRequest AuthRequest.Response AuthError)}

/-- Keys that never expire stay so. -/
theorem keys_of_run (hscope : ∀ call, scope.admits call → call.Served)
    (hkeys : ∀ key ∈ db.apiKeys.rows, key.expiresAt = none)
    (hrun : Run (identitySystem scope).Step (.idle (.initial db clock)) labels final) :
    ∀ key ∈ final.store.db.apiKeys.rows, key.expiresAt = none := by
  have hstart : (identityDiscipline scope clock).Respected (.idle (.initial db clock)) :=
    respected_of_initial hscope (run_nil.mpr rfl)
  have hall := Run.preserves
    (fun state => (identityDiscipline scope clock).Respected state ∧
      ∀ key ∈ state.store.db.apiKeys.rows, key.expiresAt = none) ⟨hstart, hkeys⟩ ?_ hrun
  · exact hall.2
  · intro before label after hbefore hstep
    refine ⟨respected_of_sound hscope hbefore.1 (run_singleton.mpr hstep), ?_⟩
    intro key hmem
    cases databaseStep hbefore.1 hstep with
    | unchanged hdb hminted hclock =>
        rw [hdb] at hmem
        exact hbefore.2 key hmem
    | flipped accountId status hflips hafter =>
        rw [hafter] at hmem
        exact hbefore.2 key hmem
    | answered pid call reply hallows hanswers hafter =>
        have hmoved := hanswers.key_step key.id
        rw [KeyedTable.find?_of_mem hmem] at hmoved
        cases hold : before.store.db.apiKeys.find? key.id with
        | none =>
            rw [hold] at hmoved
            cases hmoved
        | some old =>
            rw [hold] at hmoved
            have hnever := hbefore.2 old (KeyedTable.mem_of_find? hold)
            cases hmoved with
            | some hkept =>
                cases hkept with
                | kept => exact hnever
                | touched lastUsedAt _ => exact hnever
                | revoked revokedAt _ _ => exact hnever

/-- Every call has returned or stopped. -/
def Quiescent (config : Configuration AuthCall AuthRequest AuthRequest.Response AuthError
    AuthCall.Result IdentityWorld) : Prop :=
  ∀ pid call r next, config.process pid ≠ some ⟨call, .request r next⟩

/-- The discipline holds when observation starts at a quiet moment. -/
theorem respected_of_quiescent {world : IdentityWorld} (hsound : world.Sound world.clock)
    (hquiet : Quiescent config) :
    (identityDiscipline scope world.clock).Respected ⟨world, config.process⟩ := by
  refine ⟨hsound, ?_⟩
  intro pid call program hprocess
  cases program with
  | done value => exact fun _ _ _ => trivial
  | fault cause => trivial
  | request r next => exact absurd hprocess (hquiet pid call r next)

theorem renewed_of_run (hscope : ∀ call, scope.admits call → call.Served)
    (hflips : ¬ scope.flips) {used : Time} {origin : AuthSession}
    (hunrevoked : origin.revokedAt = none)
    (hrespected : (identityDiscipline scope used).Respected config)
    (hrenewed : Renewed used origin config.store)
    (hrun : Run (identitySystem scope).Step config labels final)
    (hgoes : ∀ label ∈ labels, ¬ Ends origin label)
    (htime : final.store.clock < acceptedUntil used origin) : Renewed used origin final.store := by
  have hall := Run.invariant
    (I := fun front (state : Configuration AuthCall AuthRequest AuthRequest.Response AuthError
        AuthCall.Result IdentityWorld) =>
      (identityDiscipline scope used).Respected state ∧
        (state.store.clock < acceptedUntil used origin → (∀ label ∈ front, ¬ Ends origin label) →
          Renewed used origin state.store))
    ⟨hrespected, fun _ _ => hrenewed⟩ ?_ hrun
  · exact hall.2 htime hgoes
  · intro front before label after hfront hstep
    have hmoved := databaseStep hfront.1 hstep
    refine ⟨respected_of_sound hscope hfront.1 (run_singleton.mpr hstep), fun hclock hkeeps => ?_⟩
    have hearlier := hmoved.clock_le.trans_lt hclock
    have hbefore := hfront.2 hearlier fun label hlabel =>
      hkeeps label (List.mem_append_left _ hlabel)
    exact hbefore.step hfront.1.1 hunrevoked hflips hearlier hmoved
      (hkeeps label (List.mem_append_right _ (List.mem_singleton_self _)))

/-- An authentication that succeeds alone at a quiet moment keeps succeeding. -/
theorem accepted_until_of_run (hscope : ∀ call, scope.admits call → call.Served)
    (hflips : ¬ scope.flips) (hkeys : ∀ key ∈ db.apiKeys.rows, key.expiresAt = none)
    (hpast : Run (identitySystem scope).Step (.idle (.initial db clock)) past config)
    (hquiet : Quiescent config) {call : AuthCall} {kind : SessionKind} {token : String}
    (hcall : call.Authenticates kind token) {world : IdentityWorld} {value : call.Result}
    (hexec : (call.program scope.config).exec answerAlone config.store = (world, .ok value)) :
    ∃ accountId sessionId session secret,
      scope.config.parseSessionToken token = some (accountId, sessionId, secret) ∧
      config.store.db.session accountId sessionId = some session ∧
      ∀ rest final, Run (identitySystem scope).Step ⟨world, config.process⟩ rest final →
        (∀ label ∈ rest, ¬ Ends session label) →
        final.store.clock < acceptedUntil config.store.clock session →
        ∀ again : AuthCall, again.Authenticates kind token → ∃ after value,
          (again.program scope.config).exec answerAlone final.store = (after, .ok value) := by
  have hrespected := respected_of_initial hscope hpast
  have hsound : config.store.Sound config.store.clock :=
    { hrespected.1 with clock := le_refl _ }
  cases exec_authenticates hcall config.store with
  | inr hrefused =>
      obtain ⟨_, after, cause, hother⟩ := hrefused
      rw [hexec, Prod.mk.injEq] at hother
      cases hother.2
  | inl haccepted =>
      obtain ⟨accountId, sessionId, session, husable, middle, result, hmiddle, hother⟩ := haccepted
      rw [hexec, Prod.mk.injEq] at hother
      obtain ⟨secret, hparsed, _⟩ := husable.parsed
      refine ⟨accountId, sessionId, session, secret, hparsed, husable.stored, ?_⟩
      intro rest final hrest hgoes htime again hagain
      have hserved : call.Served := by
        cases hcall with
        | browser token csrfCookie => trivial
        | astrometry token => trivial
      have hworld : world.Sound config.store.clock := by
        have hobeys : (call.program scope.config).Obeys
            ((identityDiscipline scope config.store.clock).contract 0) (fun _ _ => True)
              config.store := obeys_program hserved hsound
        have hanswers : ∀ store r after reply, answerAlone store r = .ok (after, reply) →
            ((identityDiscipline scope config.store.clock).contract 0).answers store r reply after :=
          fun _ _ _ _ hanswer => serves_answerAlone hanswer 0
        have hinvariant := hobeys.exec hanswers hsound
        rw [hexec] at hinvariant
        exact hinvariant
      have hclock : world.clock = config.store.clock := by
        rw [hother.1]
        unfold IdentityWorld.renewed
        cases hmiddle with
        | kept =>
            split_ifs
            · rfl
            · rfl
        | touched accountId keyId now =>
            split_ifs
            · rfl
            · rfl
      have hstart : (identityDiscipline scope config.store.clock).Respected
          ⟨world, config.process⟩ := by
        have hquietly : (identityDiscipline scope world.clock).Respected
            ⟨world, config.process⟩ :=
          respected_of_quiescent (by rw [hclock]; exact hworld) hquiet
        rw [hclock] at hquietly
        exact hquietly
      have hrenewed : Renewed config.store.clock session world := by
        rw [hother.1]
        exact renewed_of_usable husable (keys_of_run hscope hkeys hpast) hmiddle
      have hunrevoked : session.revokedAt = none := by
        have hlive := husable.live
        unfold AuthSession.live at hlive
        simp only [Bool.and_eq_true, Option.isNone_iff_eq_none] at hlive
        exact hlive.1.1
      have hkept := renewed_of_run hscope hflips hunrevoked hstart hrenewed hrest hgoes htime
      have hfinal := (respected_of_sound hscope hstart hrest).1
      obtain ⟨current, hcurrent⟩ := usable_of_renewed husable hkept hfinal htime
      have hcases := @exec_authenticates scope.config again kind token hagain final.store
      cases hcases with
      | inl haccepted =>
          obtain ⟨_, _, _, _, _, outcome, _, hagainExec⟩ := haccepted
          exact ⟨_, outcome, hagainExec⟩
      | inr hrefused => exact absurd ⟨accountId, sessionId, current, hcurrent⟩ hrefused.1

end Runs

/-! ## The sweep -/

/-- The purge keeps every session that is live and every challenge that has not
expired at its reading of the clock or at any later time. -/
theorem purgeExpired_keeps (db : IdentityDatabase) {now later : Time} (hlater : now ≤ later) :
    (∀ sessionId session, db.authSessions.find? sessionId = some session →
      session.live later = true →
        (db.purgeExpired now).authSessions.find? sessionId = some session) ∧
    ∀ challengeId challenge, db.authChallenges.find? challengeId = some challenge →
      later < challenge.expiresAt →
        (db.purgeExpired now).authChallenges.find? challengeId = some challenge := by
  have hmonth : (0 : Time) ≤ days 30 := by
    unfold days minutes
    norm_num
  have hday : (0 : Time) ≤ days 1 := by
    unfold days minutes
    norm_num
  constructor
  · intro sessionId session hfind hlive
    unfold AuthSession.live at hlive
    simp only [Bool.and_eq_true, Option.isNone_iff_eq_none, decide_eq_true_eq] at hlive
    obtain ⟨⟨hunrevoked, hidle⟩, habsolute⟩ := hlive
    unfold IdentityDatabase.purgeExpired
    dsimp only
    rw [KeyedTable.find?_filter, hfind, Option.filter_some, if_pos]
    have hbefore : ¬ session.absoluteExpiresAt < now := by linarith
    have hnotLong : ¬ session.expiresAt < now - days 30 := by linarith
    simp [hunrevoked, hbefore, hnotLong]
  · intro challengeId challenge hfind hunexpired
    unfold IdentityDatabase.purgeExpired
    dsimp only
    rw [KeyedTable.find?_filter, hfind, Option.filter_some, if_pos]
    have hnotLong : ¬ challenge.expiresAt < now - days 1 := by linarith
    simp [hnotLong]

/-- A sweep in a run removes no session that is live and no challenge that has
not expired. -/
theorem purge_step_keeps {scope : IdentityScope} (hscope : ∀ call, scope.admits call → call.Served)
    {db : IdentityDatabase} {clock : Time}
    {before after : Configuration AuthCall AuthRequest AuthRequest.Response AuthError
      AuthCall.Result IdentityWorld}
    {past : List (Label AuthCall AuthRequest AuthRequest.Response AuthError)}
    (hpast : Run (identitySystem scope).Step (.idle (.initial db clock)) past before)
    {pid : ℕ} {now : Time} {reply : Except Fault ℕ}
    (hstep : (identitySystem scope).Step before (.ask pid (.repository (.purgeExpired now)) reply)
      after) :
    now ≤ before.store.clock ∧ ∀ time, now ≤ time →
      (∀ sessionId session, before.store.db.authSessions.find? sessionId = some session →
        session.live time = true →
          after.store.db.authSessions.find? sessionId = some session) ∧
      ∀ challengeId challenge,
        before.store.db.authChallenges.find? challengeId = some challenge →
          time < challenge.expiresAt →
            after.store.db.authChallenges.find? challengeId = some challenge := by
  have hrespected := respected_of_initial hscope hpast
  obtain ⟨call, next, hprocess⟩ := System.process_of_ask hstep
  have hallows : before.store.Allows clock pid (.repository (.purgeExpired now)) :=
    hrespected.guard hprocess
  refine ⟨hallows, ?_⟩
  intro time htime
  have hdb : after.store.db = before.store.db.purgeExpired now ∨
      after.store.db = before.store.db := by
    cases hstep with
    | ask pid call r next reply store hasks hserves =>
        obtain ⟨db, hserved, hafter⟩ := hserves
        rw [hafter]
        cases hserved with
        | inl hanswers => exact .inl hanswers.2
        | inr hfailed => exact .inr hfailed.2
  cases hdb with
  | inl hpurged =>
      rw [hpurged]
      exact purgeExpired_keeps before.store.db htime
  | inr hsame =>
      rw [hsame]
      exact ⟨fun _ _ hfind _ => hfind, fun _ _ hfind _ => hfind⟩

/-! ## The law -/

/-- How long sessions live: what every stored one satisfies; that after a
revocation, the absolute expiry or thirty days without use no authentication
that starts then succeeds; that until then one that is used keeps being
accepted; and what the sweep keeps. -/
theorem session_lifetime (scope : IdentityScope)
    (hscope : ∀ call, scope.admits call → call.Served) (db : IdentityDatabase) (clock : Time) :
    (∀ labels final, Run (identitySystem scope).Step (.idle (.initial db clock)) labels final →
      ∀ session ∈ final.store.db.authSessions.rows,
        session.expiresAt ≤ session.lastSeenAt + days 30 ∧
        session.expiresAt ≤ session.absoluteExpiresAt ∧
        session.absoluteExpiresAt = session.createdAt + days 90) ∧
    (∀ past before user revoke reply after session revokedAt rest final,
      Run (identitySystem scope).Step (.idle (.initial db clock)) past before →
      (identitySystem scope).Step before (.ask user (.repository revoke) (.ok reply)) after →
      (revoke = .revokeSession session.accountId session.id revokedAt ∨
        revoke = .revokeAllSessions session.accountId revokedAt) →
      before.store.db.authSessions.find? session.id = some session →
      Run (identitySystem scope).Step after rest final →
      ∀ pid (call : AuthCall) value token accountId secret, .start pid call ∈ rest →
        final.process pid = some ⟨call, .done value⟩ → call.sessionToken? = some token →
          scope.config.parseSessionToken token ≠ some (accountId, session.id, secret)) ∧
    (∀ past middle rest final,
      Run (identitySystem scope).Step (.idle (.initial db clock)) past middle →
      Run (identitySystem scope).Step middle rest final →
      ∀ pid (call : AuthCall) value token accountId sessionId secret, .start pid call ∈ rest →
        final.process pid = some ⟨call, .done value⟩ → call.sessionToken? = some token →
        scope.config.parseSessionToken token = some (accountId, sessionId, secret) →
          (∃ first ∈ final.store.minted, first.id = sessionId ∧
            middle.store.clock < first.createdAt + days 90) ∧
          ¬ ((∀ first ∈ final.store.minted, first.id = sessionId →
              first.createdAt + days 30 ≤ middle.store.clock) ∧
            ∀ used, UsedAt scope.config past (past ++ rest) sessionId used →
              used + days 30 ≤ middle.store.clock)) ∧
    (¬ scope.flips → (∀ key ∈ db.apiKeys.rows, key.expiresAt = none) →
      ∀ past config, Run (identitySystem scope).Step (.idle (.initial db clock)) past config →
      Quiescent config → ∀ (call : AuthCall) kind token world value,
      call.Authenticates kind token →
      (call.program scope.config).exec answerAlone config.store = (world, .ok value) →
      ∃ accountId sessionId session secret,
        scope.config.parseSessionToken token = some (accountId, sessionId, secret) ∧
        config.store.db.session accountId sessionId = some session ∧
        ∀ rest final, Run (identitySystem scope).Step ⟨world, config.process⟩ rest final →
          (∀ label ∈ rest, ¬ Ends session label) →
          final.store.clock < min (config.store.clock + days 30 - minutes 15)
            (session.createdAt + days 90) →
          ∀ again : AuthCall, again.Authenticates kind token → ∃ after value,
            (again.program scope.config).exec answerAlone final.store = (after, .ok value)) ∧
    ∀ past before pid now reply after,
      Run (identitySystem scope).Step (.idle (.initial db clock)) past before →
      (identitySystem scope).Step before (.ask pid (.repository (.purgeExpired now)) reply) after →
      now ≤ before.store.clock ∧ ∀ time, now ≤ time →
        (∀ sessionId session, before.store.db.authSessions.find? sessionId = some session →
          session.live time = true →
            after.store.db.authSessions.find? sessionId = some session) ∧
        ∀ challengeId challenge,
          before.store.db.authChallenges.find? challengeId = some challenge →
            time < challenge.expiresAt →
              after.store.db.authChallenges.find? challengeId = some challenge := by
  refine ⟨?_, ?_, ?_, ?_, ?_⟩
  · intro labels final hrun session hmem
    have hlawful := (respected_of_initial hscope hrun).1.lawful session hmem
    refine ⟨expiresAt_le_of_lawful hlawful, ?_, hlawful.2⟩
    rw [hlawful.1]
    exact min_le_right _ _
  · intro past before user revoke reply after session revokedAt rest final hpast hstep hrevoke hfind
      hrest pid call value token accountId secret hstart hdone htoken hparsed
    have hafter : Run (identitySystem scope).Step (.idle (.initial db clock)) (past ++ [_]) after :=
      run_append.mpr ⟨before, hpast, run_singleton.mpr hstep⟩
    have hrow : ∃ row, after.store.db.authSessions.find? session.id = some row ∧
        row.revokedAt ≠ none := by
      cases hstep with
      | ask pid call r next answer store hasks hserves =>
          obtain ⟨db, hserved, hwritten⟩ := hserves
          rw [hwritten]
          cases hserved with
          | inl hanswers => exact hanswers.session_revoked hrevoke hfind
          | inr hfailed =>
              obtain ⟨message, hreply⟩ := hfailed.1
              cases hreply
    obtain ⟨row, hrow, hrevoked⟩ := hrow
    have hid := KeyedTable.key_of_find? hrow
    have hcut := cut_of_revoked (respected_of_initial hscope hafter).1
      (by rw [hid]; exact hrow) hrevoked
    rw [hid] at hcut
    obtain ⟨_, _, _, hother, huncut, _⟩ := accepted_of_run hscope hafter hrest hstart hdone htoken
    rw [hparsed, Option.some.injEq] at hother
    cases hother
    exact huncut hcut
  · intro past middle rest final hpast hrest pid call value token accountId sessionId secret hstart
      hdone htoken hparsed
    obtain ⟨_, _, _, hother, _, habsolute, hused⟩ :=
      accepted_of_run hscope hpast hrest hstart hdone htoken
    rw [hparsed, Option.some.injEq] at hother
    cases hother
    exact ⟨habsolute, fun hunused => hused ⟨hunused.1, hunused.2⟩⟩
  · intro hflips hkeys past config hpast hquiet call kind token world value hcall hexec
    exact accepted_until_of_run hscope hflips hkeys hpast hquiet hcall hexec
  · intro past before pid now reply after hpast hstep
    exact purge_step_keeps hscope hpast hstep

/-- A service that draws its identifiers in order; its digests are the texts
themselves. -/
def orderlyConfig : AuthConfig where
  parseStr := fun text =>
    ((List.range 8).map (BitVec.ofNat 128)).find? fun id => uuidText id = text
  trimLowercase := id
  isEmailAddress := fun _ => true
  secretDigest := id
  codeDigest := fun _ code => code

def orderlyScope : IdentityScope := ⟨orderlyConfig, AuthCall.Served, False⟩

def visitToken : String := formatPrefixedToken "session" [1, 2] "secret"

/-- A browser presents the session of the sign-in. -/
abbrev visit : AuthCall := .authenticateBrowserSession visitToken none

/-- The visit twenty days after the sign-in. -/
def visited : IdentityWorld × Except AuthError AuthenticatedBrowserSession :=
  (visit.program orderlyConfig).exec answerAlone { orderlyConfig.signIn.1 with clock := days 20 }

/-- A session that is used after twenty days lives until the fiftieth. -/
theorem session_lifetime_visit :
    ∃ past middle rest final, ∃ value : AuthenticatedBrowserSession,
      Run (identitySystem orderlyScope).Step
        (.idle (.initial (IdentityWorld.challenged orderlyConfig).db 0)) past middle ∧
      Run (identitySystem orderlyScope).Step middle rest final ∧
      .start 1 visit ∈ rest ∧ final.process 1 = some ⟨visit, .done value⟩ ∧
      (final.store.db.authSessions.rows.map fun session => (session.id, session.expiresAt)) =
        [(2, days 50)] ∧
      (∀ session ∈ final.store.db.authSessions.rows,
        session.expiresAt ≤ session.lastSeenAt + days 30 ∧
        session.expiresAt ≤ session.absoluteExpiresAt ∧
        session.absoluteExpiresAt = session.createdAt + days 90) ∧
      ∃ first ∈ final.store.minted, first.id = 2 ∧
        middle.store.clock < first.createdAt + days 90 := by
  have hdone : orderlyConfig.signIn.2.toBool = true := by decide +kernel
  have hvisited : visited.2.toBool = true := by decide +kernel
  have hexpiry : (visited.1.db.authSessions.rows.map fun session =>
      (session.id, session.expiresAt)) = [(2, days 50)] := by decide +kernel
  have hparsed : orderlyConfig.parseSessionToken visitToken = some (1, 2, "secret") := by
    decide +kernel
  have hserved : ∀ call, orderlyScope.admits call → call.Served := fun _ hserved => hserved
  have hlaws := session_lifetime orderlyScope hserved (IdentityWorld.challenged orderlyConfig).db 0
  cases hvalue : orderlyConfig.signIn.2 with
  | error cause =>
      rw [hvalue] at hdone
      cases hdone
  | ok signedIn =>
      cases hagain : visited.2 with
      | error cause =>
          rw [hagain] at hvisited
          cases hvisited
      | ok value =>
          have hadmits : orderlyScope.admits codeSignIn := trivial
          have hsignIn : orderlyConfig.signIn = (orderlyConfig.signIn.1, .ok signedIn) := by
            rw [← hvalue]
          obtain ⟨labels, hrun⟩ := exists_signIn_run hadmits hsignIn
          have htick : (identitySystem orderlyScope).environment orderlyConfig.signIn.1
              { orderlyConfig.signIn.1 with clock := days 20 } := .tick (days 20) (by decide +kernel)
          have hmiddle := run_snoc.mpr ⟨_, hrun, System.Step.environment _ htick⟩
          have hanswer : ∀ store r later reply, answerAlone store r = .ok (later, reply) →
              (identitySystem orderlyScope).answers 1 store r reply later := by
            intro store r later reply hanswer
            exact serves_answerAlone hanswer 1
          have hexec : ((identitySystem orderlyScope).body visit).exec answerAlone
              { orderlyConfig.signIn.1 with clock := days 20 } = (visited.1, .ok value) := by
            rw [← hagain]
            rfl
          have hvisit : (identitySystem orderlyScope).admits 1
              { orderlyConfig.signIn.1 with clock := days 20 } visit := trivial
          have hfree : Function.update (fun _ => none) 0 (some ⟨codeSignIn, .done signedIn⟩) 1 =
              (none : Option ((call : AuthCall) × AuthProgram call.Result)) := rfl
          obtain ⟨rest, hrest⟩ := System.exists_run_of_call hanswer hfree hvisit hexec
          have hfinal := run_append.mpr ⟨_, hmiddle, hrest⟩
          refine ⟨_, _, _, _, value, hmiddle, hrest, List.mem_cons_self, rfl, hexpiry,
            hlaws.1 _ _ hfinal, ?_⟩
          exact (hlaws.2.2.1 _ _ _ _ hmiddle hrest 1 visit value visitToken 1 2 "secret"
            List.mem_cons_self rfl rfl hparsed).1

end SeizaServer
