import SeizaServer.SqlxIdentityRepository

/-!
# What a call does to the identity tables

One lemma for each fallible method says how it went, and one for each table
says what any call can do to one of its rows.
-/

namespace SeizaServer

namespace IdentityDatabase

variable {db after : IdentityDatabase}

/-! ## How a method went -/

theorem insertSession_eq_ok {session : AuthSession}
    (hinsert : db.insertSession session = .ok after) :
    ∃ sessions, db.authSessions.insert? session = some sessions ∧
      (db.accounts.find? session.accountId).isSome ∧
        after = { db with authSessions := sessions } := by
  unfold insertSession at hinsert
  split_ifs at hinsert with hkeys
  split at hinsert
  next sessions hsessions =>
    exact ⟨sessions, hsessions, hkeys.1, (Except.ok.inj hinsert).symm⟩
  next => cases hinsert

theorem insertChallenge_eq_ok {challenge : AuthChallenge}
    (hinsert : db.insertChallenge challenge = .ok after) :
    ∃ challenges, db.authChallenges.insert? challenge = some challenges ∧
      after = { db with authChallenges := challenges } := by
  unfold insertChallenge at hinsert
  split_ifs at hinsert
  split at hinsert
  next challenges hchallenges => exact ⟨challenges, hchallenges, (Except.ok.inj hinsert).symm⟩
  next => cases hinsert

theorem find?_append_account {accounts : AccountTable} {account : Account} {hid hemail hhandle}
    (accountId : AccountId) :
    (accounts.append account hid hemail hhandle).find? accountId =
      if account.id = accountId then some account else accounts.find? accountId := by
  unfold AccountTable.find? AccountTable.append
  rw [KeyedTable.find?_append]

/-- Where the account of an email comes from. -/
theorem accountForEmail_eq_ok {emailLookup : String} {newAccount account : Account}
    {accountCreated : Bool}
    (hlocated : db.accountForEmail emailLookup newAccount = .ok (after, account, accountCreated)) :
    after.accounts.byEmail? emailLookup = some account ∧
      (∃ accounts, after = { db with accounts := accounts }) ∧
      (∀ accountId, after.accounts.find? accountId = db.accounts.find? accountId ∨
        (db.accounts.find? accountId = none ∧ newAccount.id = accountId ∧
          after.accounts.find? accountId = some newAccount)) ∧
      (db.accounts.byEmail? emailLookup = some account ∨
        (db.accounts.byEmail? emailLookup = none ∧ account = newAccount)) := by
  unfold accountForEmail at hlocated
  split at hlocated
  next found hfound =>
    cases hlocated
    exact ⟨hfound, ⟨db.accounts, rfl⟩, fun _ => .inl rfl, .inl hfound⟩
  next hnone =>
    unfold AccountTable.insertNew at hlocated
    split_ifs at hlocated with hid hemail hhandle
    · -- The email is there already, so it is not the one that was looked up.
      dsimp only [bind, Except.bind] at hlocated
      rw [hnone] at hlocated
      cases hlocated
    · cases hlocated
    · dsimp only [bind, Except.bind] at hlocated
      split at hlocated
      next => cases hlocated
      next found hfound =>
        cases hlocated
        refine ⟨hfound, ⟨_, rfl⟩, ?_, .inr ⟨hnone, ?_⟩⟩
        · intro accountId
          by_cases hsame : newAccount.id = accountId
          · refine .inr ⟨hsame ▸ hid, hsame, ?_⟩
            rw [find?_append_account, if_pos hsame]
          · refine .inl ?_
            rw [find?_append_account, if_neg hsame]
        · have hrows : (db.accounts.append newAccount hid hemail hhandle).table.rows =
              db.accounts.table.rows ++ [newAccount] := rfl
          unfold AccountTable.byEmail? at hfound hnone
          rw [hrows, List.find?_append, hnone, Option.none_or] at hfound
          exact (List.mem_singleton.mp (List.mem_of_find?_eq_some hfound))
    · cases hlocated

/-- A completion that is refused writes nothing; any other passed all checks. -/
theorem completeEmailChallenge_eq_ok {challengeId : ChallengeId} {now : Time} {maxAttempts : ℕ}
    {newAccount : Account} {newSession : AuthSession} {completed : Option CompletedEmailSignIn}
    (hcompleted : db.completeEmailChallenge challengeId now maxAttempts newAccount newSession =
      .ok (completed, after)) :
    (completed = none ∧ after = db) ∨
      ∃ challenge emailLookup located account accountCreated inserted,
        db.authChallenges.find? challengeId = some challenge ∧
        challenge.emailLookup = some emailLookup ∧ challenge.purpose = .emailLogin ∧
        Attemptable now maxAttempts challenge = true ∧
        (db.consume (fun challenge => challenge.id = challengeId) now).accountForEmail emailLookup
          newAccount = .ok (located, account, accountCreated) ∧
        account.status = .active ∧
        located.insertSession { newSession with accountId := account.id } = .ok inserted ∧
        completed = some ⟨{ account with updatedAt := now, lastAuthenticatedAt := now },
          { newSession with accountId := account.id }, accountCreated⟩ ∧
        after = { inserted.consume (fun challenge => challenge.emailLookup = some emailLookup &&
            challenge.purpose = .emailLogin && challenge.consumedAt.isNone) now with
          accounts := inserted.accounts.modify (fun row => row.id = account.id) fun row =>
            { row with updatedAt := now, lastAuthenticatedAt := now } } := by
  unfold completeEmailChallenge at hcompleted
  split at hcompleted
  next =>
    cases hcompleted
    exact .inl ⟨rfl, rfl⟩
  next challenge hchallenge =>
    split at hcompleted
    next =>
      cases hcompleted
      exact .inl ⟨rfl, rfl⟩
    next emailLookup hemail =>
      split_ifs at hcompleted with hpurpose hattempt
      · cases hcompleted
        exact .inl ⟨rfl, rfl⟩
      · cases hcompleted
        exact .inl ⟨rfl, rfl⟩
      · rw [not_not] at hpurpose
        rw [Bool.not_eq_false] at hattempt
        dsimp only at hcompleted
        cases hlocated : (db.consume (fun challenge => challenge.id = challengeId)
            now).accountForEmail emailLookup newAccount with
        | error cause =>
            rw [hlocated] at hcompleted
            cases hcompleted
        | ok triple =>
            obtain ⟨located, account, accountCreated⟩ := triple
            rw [hlocated] at hcompleted
            change (if account.status ≠ .active then _ else _) = _ at hcompleted
            split_ifs at hcompleted with hstatus
            · cases hcompleted
              exact .inl ⟨rfl, rfl⟩
            · rw [not_not] at hstatus
              cases hinserted : located.insertSession { newSession with accountId := account.id } with
              | error cause =>
                  rw [hinserted] at hcompleted
                  cases hcompleted
              | ok inserted =>
                  rw [hinserted] at hcompleted
                  cases hcompleted
                  exact .inr ⟨challenge, emailLookup, located, account, accountCreated, inserted,
                    hchallenge, hemail, hpurpose, hattempt, hlocated, hstatus, hinserted, rfl, rfl⟩

theorem completePasskeySignIn_eq_ok {challengeId : ChallengeId} {passkey : PasskeyCredential}
    {session : AuthSession} {now : Time} {completed : Option CompletedPasskeySignIn}
    (hcompleted : db.completePasskeySignIn challengeId passkey session now =
      .ok (completed, after)) :
    (completed = none ∧ after = db) ∨
      ∃ sessions, db.authSessions.insert? session = some sessions ∧
        after.authSessions = sessions ∧ after.apiKeys = db.apiKeys ∧
        after.accounts = db.accounts.modify
          (fun row => row.id = passkey.accountId && row.status = .active)
          (fun row => { row with updatedAt := now, lastAuthenticatedAt := now }) ∧
        ∃ consumable, after.authChallenges = (db.consume consumable now).authChallenges := by
  unfold completePasskeySignIn at hcompleted
  by_cases haccount : passkey.accountId ≠ session.accountId
  · rw [if_pos haccount] at hcompleted
    cases hcompleted
  · rw [if_neg haccount] at hcompleted
    split at hcompleted
    next =>
      cases hcompleted
      exact .inl ⟨rfl, rfl⟩
    next account hactive =>
      dsimp only at hcompleted
      split_ifs at hcompleted with hconsumable husable
      · cases hcompleted
        exact .inl ⟨rfl, rfl⟩
      · cases hcompleted
        exact .inl ⟨rfl, rfl⟩
      · generalize hupdated : IdentityDatabase.insertSession _ session = inserting at hcompleted
        cases inserting with
        | error cause => cases hcompleted
        | ok inserted =>
            cases hcompleted
            obtain ⟨sessions, hsessions, _, hinserted⟩ := insertSession_eq_ok hupdated
            subst hinserted
            exact .inr ⟨sessions, hsessions, rfl, rfl, rfl, _, rfl⟩

/-- Creating a challenge leaves the other tables alone. -/
theorem createEmailChallenge_frame {challenge : AuthChallenge} {maxLive : ℕ}
    {reply : Except Fault Unit} (hcreate : db.CreateEmailChallenge challenge maxLive reply after) :
    after.accounts = db.accounts ∧ after.authSessions = db.authSessions ∧
      after.apiKeys = db.apiKeys := by
  unfold CreateEmailChallenge at hcreate
  split_ifs at hcreate
  · rw [hcreate.2]
    exact ⟨rfl, rfl, rfl⟩
  · rw [hcreate.2]
    exact ⟨rfl, rfl, rfl⟩
  · rw [hcreate.2]
    exact ⟨rfl, rfl, rfl⟩
  · split at hcreate
    next =>
      rw [hcreate.2]
      exact ⟨rfl, rfl, rfl⟩
    next inserted hinserted =>
      obtain ⟨challenges, _, hsame⟩ := insertChallenge_eq_ok hinserted
      obtain ⟨_, live, _, hafter⟩ := hcreate
      rw [hafter, hsame]
      exact ⟨rfl, rfl, rfl⟩

/-! ## Sessions -/

/-- Which sessions a call revokes. -/
def Revokes : IdentityCall → AuthSession → Prop
  | .revokeSession accountId sessionId _, session =>
      session.accountId = accountId ∧ session.id = sessionId
  | .revokeAllSessions accountId _, session => session.accountId = accountId
  | .revokeApiKey accountId keyId _, session =>
      session.accountId = accountId ∧ session.apiKeyId = some keyId
  | _, _ => False

/-- What a call can do to a session that stays. -/
inductive SessionStep (call : IdentityCall) (before : AuthSession) : AuthSession → Prop where
  | kept : SessionStep call before before
  | revoked (revokedAt : Time) (hcall : Revokes call before) (hlive : before.revokedAt = none) :
      SessionStep call before { before with revokedAt := some revokedAt }
  | touched (lastSeenAt expiresAt : Time)
      (hcall : call = .touchSession before.accountId before.id lastSeenAt expiresAt)
      (hlive : before.revokedAt = none) (habsolute : lastSeenAt < before.absoluteExpiresAt) :
      SessionStep call before { before with lastSeenAt := lastSeenAt, expiresAt := expiresAt }

/-- Where a session of the database after a call comes from. -/
inductive SessionOrigin (db : IdentityDatabase) (call : IdentityCall) (session : AuthSession) :
    Prop where
  | stayed (before : AuthSession) (hbefore : db.authSessions.find? session.id = some before)
      (hstep : SessionStep call before session)
  | inserted (newSession : AuthSession) (hcall : call.newSession? = some newSession)
      (hnew : db.authSessions.find? session.id = none)
      (hsession : session = { newSession with accountId := session.accountId })
      (haccount : call = .createSession newSession → session = newSession)

/-- When a call may remove a session. -/
def Removes (call : IdentityCall) (session : AuthSession) : Prop :=
  call = .deleteSession session.accountId session.id ∨
    ∃ now, call = .purgeExpired now ∧ (session.absoluteExpiresAt < now ∨
      session.expiresAt < now - days 30 ∨
        ∃ revokedAt, session.revokedAt = some revokedAt ∧ revokedAt < now - days 30)

section Sessions

variable {call : IdentityCall} {session : AuthSession}

theorem origin_of_same (hsame : after.authSessions = db.authSessions)
    (hfind : after.authSessions.find? session.id = some session) : SessionOrigin db call session := by
  rw [hsame] at hfind
  exact .stayed session hfind .kept

theorem origin_of_modify {p : AuthSession → Bool} {f : AuthSession → AuthSession}
    (hid : ∀ session, (f session).id = session.id)
    (hsame : after.authSessions = db.authSessions.modify p f hid)
    (hstep : ∀ before, p before = true → SessionStep call before (f before))
    (hfind : after.authSessions.find? session.id = some session) : SessionOrigin db call session := by
  rw [hsame, KeyedTable.find?_modify] at hfind
  obtain ⟨before, hbefore, hrow⟩ := Option.map_eq_some_iff.mp hfind
  by_cases hselected : p before
  · rw [if_pos hselected] at hrow
    exact .stayed before hbefore (hrow ▸ hstep before hselected)
  · rw [if_neg hselected] at hrow
    exact .stayed before hbefore (hrow ▸ .kept)

theorem origin_of_filter {p : AuthSession → Bool}
    (hsame : after.authSessions = db.authSessions.filter p)
    (hfind : after.authSessions.find? session.id = some session) : SessionOrigin db call session := by
  rw [hsame, KeyedTable.find?_filter, Option.filter_eq_some_iff] at hfind
  exact .stayed session hfind.1 .kept

theorem origin_of_insert {newSession : AuthSession} {accountId : AccountId}
    {sessions : KeyedTable AuthSession SessionId AuthSession.id}
    (hinsert : db.authSessions.insert? { newSession with accountId := accountId } = some sessions)
    (hsame : after.authSessions = sessions) (hcall : call.newSession? = some newSession)
    (haccount : call = .createSession newSession → accountId = newSession.accountId)
    (hfind : after.authSessions.find? session.id = some session) : SessionOrigin db call session := by
  have hfresh := KeyedTable.fresh_of_insert? hinsert
  rw [hsame, KeyedTable.find?_insert? hinsert] at hfind
  split_ifs at hfind with hid
  · have hrow := Option.some.inj hfind
    subst hrow
    refine .inserted newSession hcall hfresh rfl ?_
    intro hcreate
    rw [haccount hcreate]
  · exact .stayed session hfind .kept

/-- Every session of the database after a call was there before, up to what the
call can do to it, or was inserted by the call. -/
theorem Answers.session_origin {reply : Except Fault call.Result}
    (hanswers : db.Answers call reply after)
    (hfind : after.authSessions.find? session.id = some session) : SessionOrigin db call session := by
  cases call with
  | accountById accountId => exact origin_of_same (congrArg _ hanswers.2) hfind
  | challengeById challengeId => exact origin_of_same (congrArg _ hanswers.2) hfind
  | createEmailChallenge challenge maxLive =>
      refine origin_of_same ?_ hfind
      exact (createEmailChallenge_frame hanswers).2.1
  | recordChallengeFailure challengeId now maxAttempts =>
      refine origin_of_same ?_ hfind
      rw [hanswers.2]
      unfold recordChallengeFailure
      dsimp only
      split_ifs <;> rfl
  | completeEmailChallenge challengeId now maxAttempts newAccount newSession =>
      dsimp only [Answers] at hanswers
      split at hanswers
      next => exact origin_of_same (congrArg _ hanswers.2) hfind
      next completed written hcompleted =>
        rw [hanswers.2] at hfind
        cases completeEmailChallenge_eq_ok hcompleted with
        | inl hrefused => exact origin_of_same (congrArg _ hrefused.2) hfind
        | inr hsome =>
            obtain ⟨_, _, located, account, _, inserted, _, _, _, _, hlocated, _, hinserted, _,
              hafter⟩ := hsome
            obtain ⟨accounts, hsame⟩ := (accountForEmail_eq_ok hlocated).2.1
            obtain ⟨sessions, hsessions, _, hwritten⟩ := insertSession_eq_ok hinserted
            subst hafter hwritten hsame
            exact origin_of_insert hsessions rfl rfl (fun hcreate => (by cases hcreate)) hfind
  | createSession newSession =>
      dsimp only [Answers] at hanswers
      split at hanswers
      next => exact origin_of_same (congrArg _ hanswers.2) hfind
      next written hinserted =>
        obtain ⟨sessions, hsessions, _, hwritten⟩ := insertSession_eq_ok hinserted
        rw [hanswers.2, hwritten] at hfind
        exact @origin_of_insert db { db with authSessions := sessions } _ session newSession
          newSession.accountId sessions hsessions rfl rfl (fun _ => rfl) hfind
  | session accountId sessionId => exact origin_of_same (congrArg _ hanswers.2) hfind
  | listSessions accountId => exact origin_of_same (congrArg _ hanswers.2) hfind
  | touchSession accountId sessionId lastSeenAt expiresAt =>
      refine origin_of_modify (by intro; rfl) (congrArg _ hanswers.2) ?_ hfind
      intro before hselected
      simp only [Bool.and_eq_true, decide_eq_true_eq, Option.isNone_iff_eq_none] at hselected
      obtain ⟨⟨⟨hid, haccount⟩, hlive⟩, habsolute⟩ := hselected
      exact .touched lastSeenAt expiresAt (by rw [hid, haccount]) hlive habsolute
  | revokeSession accountId sessionId revokedAt =>
      refine origin_of_modify (by intro; rfl) (congrArg _ hanswers.2) ?_ hfind
      intro before hselected
      simp only [Bool.and_eq_true, decide_eq_true_eq, Option.isNone_iff_eq_none] at hselected
      exact .revoked revokedAt ⟨hselected.1.2, hselected.1.1⟩ hselected.2
  | revokeAllSessions accountId revokedAt =>
      refine origin_of_modify (by intro; rfl) (congrArg _ hanswers.2) ?_ hfind
      intro before hselected
      simp only [Bool.and_eq_true, decide_eq_true_eq, Option.isNone_iff_eq_none] at hselected
      exact .revoked revokedAt hselected.1 hselected.2
  | deleteSession accountId sessionId => exact origin_of_filter (congrArg _ hanswers.2) hfind
  | passkeyByCredentialId credentialId => exact origin_of_same (congrArg _ hanswers.2) hfind
  | completePasskeySignIn challengeId passkey newSession now =>
      dsimp only [Answers] at hanswers
      split at hanswers
      next => exact origin_of_same (congrArg _ hanswers.2) hfind
      next completed written hcompleted =>
        rw [hanswers.2] at hfind
        cases completePasskeySignIn_eq_ok hcompleted with
        | inl hrefused => exact origin_of_same (congrArg _ hrefused.2) hfind
        | inr hsome =>
            obtain ⟨sessions, hsessions, hsame, _⟩ := hsome
            exact @origin_of_insert db written _ session newSession newSession.accountId sessions
              hsessions hsame rfl (fun hcreate => (by cases hcreate)) hfind
  | apiKey accountId keyId => exact origin_of_same (congrArg _ hanswers.2) hfind
  | touchApiKey accountId keyId lastUsedAt =>
      have hframe : after.authSessions = db.authSessions := by
        rw [hanswers.2]
        rfl
      exact origin_of_same hframe hfind
  | revokeApiKey accountId keyId revokedAt =>
      rw [hanswers.2] at hfind
      unfold revokeApiKey at hfind
      dsimp only at hfind
      split_ifs at hfind
      · exact origin_of_same rfl hfind
      · refine origin_of_modify (by intro; rfl) rfl ?_ hfind
        intro before hselected
        simp only [Bool.and_eq_true, decide_eq_true_eq, Option.isNone_iff_eq_none] at hselected
        exact .revoked revokedAt hselected.1 hselected.2
  | purgeExpired now => exact origin_of_filter (congrArg _ hanswers.2) hfind

/-- A session that is gone after a call was removed by a deletion or a purge. -/
theorem Answers.session_removed {reply : Except Fault call.Result}
    (hanswers : db.Answers call reply after)
    (hbefore : db.authSessions.find? session.id = some session)
    (hgone : after.authSessions.find? session.id = none) : Removes call session := by
  have hsame : after.authSessions = db.authSessions → Removes call session := by
    intro hsame
    rw [hsame, hbefore] at hgone
    cases hgone
  have hmodify : ∀ (p : AuthSession → Bool) (f : AuthSession → AuthSession)
      (hid : ∀ session, (f session).id = session.id),
      after.authSessions = db.authSessions.modify p f hid → Removes call session := by
    intro p f hid hsame
    rw [hsame, KeyedTable.find?_modify, hbefore] at hgone
    cases hgone
  have hinsert : ∀ newSession sessions,
      db.authSessions.insert? newSession = some sessions → after.authSessions = sessions →
        Removes call session := by
    intro newSession sessions hinserted hsame
    rw [hsame, KeyedTable.find?_insert? hinserted, hbefore] at hgone
    split_ifs at hgone
  cases call with
  | accountById accountId => exact hsame (congrArg _ hanswers.2)
  | challengeById challengeId => exact hsame (congrArg _ hanswers.2)
  | createEmailChallenge challenge maxLive => exact hsame (createEmailChallenge_frame hanswers).2.1
  | recordChallengeFailure challengeId now maxAttempts =>
      refine hsame ?_
      rw [hanswers.2]
      unfold recordChallengeFailure
      dsimp only
      split_ifs <;> rfl
  | completeEmailChallenge challengeId now maxAttempts newAccount newSession =>
      dsimp only [Answers] at hanswers
      split at hanswers
      next => exact hsame (congrArg _ hanswers.2)
      next completed written hcompleted =>
        cases completeEmailChallenge_eq_ok hcompleted with
        | inl hrefused => exact hsame (congrArg _ (hanswers.2.trans hrefused.2))
        | inr hsome =>
            obtain ⟨_, _, located, account, _, inserted, _, _, _, _, hlocated, _, hinserted, _,
              hafter⟩ := hsome
            obtain ⟨accounts, hlocation⟩ := (accountForEmail_eq_ok hlocated).2.1
            obtain ⟨sessions, hsessions, _, hwritten⟩ := insertSession_eq_ok hinserted
            rw [hlocation] at hsessions
            refine hinsert _ sessions hsessions ?_
            rw [hanswers.2, hafter, hwritten]
            rfl
  | createSession newSession =>
      dsimp only [Answers] at hanswers
      split at hanswers
      next => exact hsame (congrArg _ hanswers.2)
      next written hinserted =>
        obtain ⟨sessions, hsessions, _, hwritten⟩ := insertSession_eq_ok hinserted
        exact hinsert _ sessions hsessions (by rw [hanswers.2, hwritten])
  | session accountId sessionId => exact hsame (congrArg _ hanswers.2)
  | listSessions accountId => exact hsame (congrArg _ hanswers.2)
  | touchSession accountId sessionId lastSeenAt expiresAt =>
      exact hmodify _ _ (by intro; rfl) (congrArg _ hanswers.2)
  | revokeSession accountId sessionId revokedAt => exact hmodify _ _ (by intro; rfl) (congrArg _ hanswers.2)
  | revokeAllSessions accountId revokedAt => exact hmodify _ _ (by intro; rfl) (congrArg _ hanswers.2)
  | deleteSession accountId sessionId =>
      rw [hanswers.2] at hgone
      unfold deleteSession at hgone
      rw [KeyedTable.find?_filter, hbefore, Option.filter_eq_none_iff] at hgone
      have hselected := hgone session rfl
      simp only [Bool.not_eq_true', Bool.not_eq_false, Bool.and_eq_true, decide_eq_true_eq]
        at hselected
      left
      rw [hselected.1, hselected.2]
  | passkeyByCredentialId credentialId => exact hsame (congrArg _ hanswers.2)
  | completePasskeySignIn challengeId passkey newSession now =>
      dsimp only [Answers] at hanswers
      split at hanswers
      next => exact hsame (congrArg _ hanswers.2)
      next completed written hcompleted =>
        cases completePasskeySignIn_eq_ok hcompleted with
        | inl hrefused => exact hsame (congrArg _ (hanswers.2.trans hrefused.2))
        | inr hsome =>
            obtain ⟨sessions, hsessions, hwritten, _⟩ := hsome
            exact hinsert _ sessions hsessions ((congrArg _ hanswers.2).trans hwritten)
  | apiKey accountId keyId => exact hsame (congrArg _ hanswers.2)
  | touchApiKey accountId keyId lastUsedAt =>
      have hframe : after.authSessions = db.authSessions := by
        rw [hanswers.2]
        rfl
      exact hsame hframe
  | revokeApiKey accountId keyId revokedAt =>
      have hwritten := hanswers.2
      unfold revokeApiKey at hwritten
      dsimp only at hwritten
      split_ifs at hwritten
      · exact hsame (congrArg _ hwritten)
      · exact hmodify _ _ (by intro; rfl) (congrArg _ hwritten)
  | purgeExpired now =>
      rw [hanswers.2] at hgone
      unfold purgeExpired at hgone
      rw [KeyedTable.find?_filter, hbefore, Option.filter_eq_none_iff] at hgone
      have hselected := hgone session rfl
      simp only [Bool.not_eq_true', Bool.not_eq_false, Bool.or_eq_true, decide_eq_true_eq,
        Option.any_eq_true] at hselected
      refine .inr ⟨now, rfl, ?_⟩
      tauto

/-- A revocation that is answered leaves the session revoked. -/
theorem Answers.session_revoked {revokedAt : Time} {reply : Except Fault call.Result}
    (hanswers : db.Answers call reply after)
    (hrevokes : call = .revokeSession session.accountId session.id revokedAt ∨
      call = .revokeAllSessions session.accountId revokedAt)
    (hbefore : db.authSessions.find? session.id = some session) :
    ∃ row, after.authSessions.find? session.id = some row ∧ row.revokedAt ≠ none := by
  have hmodify : ∀ selected : AuthSession → Bool, selected session = true →
      after = db.revokeSessions selected revokedAt →
        ∃ row, after.authSessions.find? session.id = some row ∧ row.revokedAt ≠ none := by
    intro selected hselected hafter
    rw [hafter]
    unfold revokeSessions
    dsimp only
    rw [KeyedTable.find?_modify, hbefore]
    refine ⟨_, rfl, ?_⟩
    dsimp only
    rw [hselected, Bool.true_and]
    split_ifs with hlive
    · nofun
    · rwa [Option.isNone_iff_eq_none] at hlive
  cases hrevokes with
  | inl halone =>
      subst halone
      exact hmodify _ (by simp) hanswers.2
  | inr hall =>
      subst hall
      exact hmodify _ (by simp) hanswers.2

/-- A touch that finds its session says so. -/
theorem touchSession_fst {session : AuthSession} {lastSeenAt expiresAt : Time}
    (hfind : db.authSessions.find? session.id = some session) (hlive : session.revokedAt = none)
    (habsolute : lastSeenAt < session.absoluteExpiresAt) :
    (db.touchSession session.accountId session.id lastSeenAt expiresAt).1 = true := by
  have haffected := KeyedTable.affected_eq db.authSessions session.id fun row : AuthSession =>
    row.accountId = session.accountId && row.revokedAt.isNone &&
      decide (lastSeenAt < row.absoluteExpiresAt)
  rw [hfind, Option.elim_some, hlive] at haffected
  unfold touchSession
  dsimp only
  simp only [Bool.and_assoc, decide_eq_true_eq] at haffected ⊢
  rw [haffected]
  simp [habsolute]

end Sessions

/-! ## Keys and accounts -/

/-- What a call can do to a key. -/
inductive KeyStep (call : IdentityCall) (before : ApiKey) : ApiKey → Prop where
  | kept : KeyStep call before before
  | touched (lastUsedAt : Time) (hlive : before.revokedAt = none) :
      KeyStep call before { before with lastUsedAt := some lastUsedAt }
  | revoked (revokedAt : Time) (hlive : before.revokedAt = none)
      (hcall : call = .revokeApiKey before.accountId before.id revokedAt) :
      KeyStep call before { before with revokedAt := some revokedAt }

/-- What a call can do to an account. -/
inductive AccountStep (before : Account) : Account → Prop where
  | kept : AccountStep before before
  | authenticated (now : Time) :
      AccountStep before { before with updatedAt := now, lastAuthenticatedAt := now }

section Keys

variable {call : IdentityCall} {reply : Except Fault call.Result}

/-- No call inserts or removes a key. -/
theorem Answers.key_step (hanswers : db.Answers call reply after) (keyId : ApiKeyId) :
    Option.Rel (KeyStep call) (db.apiKeys.find? keyId) (after.apiKeys.find? keyId) := by
  have hsame : after.apiKeys = db.apiKeys →
      Option.Rel (KeyStep call) (db.apiKeys.find? keyId) (after.apiKeys.find? keyId) := by
    intro hsame
    rw [hsame]
    cases db.apiKeys.find? keyId with
    | none => exact .none
    | some key => exact .some .kept
  have hmodify : ∀ (p : ApiKey → Bool) (f : ApiKey → ApiKey) (hid : ∀ key, (f key).id = key.id),
      after.apiKeys = db.apiKeys.modify p f hid →
        (∀ key, p key = true → KeyStep call key (f key)) →
          Option.Rel (KeyStep call) (db.apiKeys.find? keyId) (after.apiKeys.find? keyId) := by
    intro p f hid hsame hstep
    rw [hsame, KeyedTable.find?_modify]
    cases db.apiKeys.find? keyId with
    | none => exact .none
    | some key =>
        apply Option.Rel.some
        dsimp only
        split_ifs with hselected
        · exact hstep key hselected
        · exact .kept
  cases call with
  | accountById accountId => exact hsame (congrArg _ hanswers.2)
  | challengeById challengeId => exact hsame (congrArg _ hanswers.2)
  | createEmailChallenge challenge maxLive => exact hsame (createEmailChallenge_frame hanswers).2.2
  | recordChallengeFailure challengeId now maxAttempts =>
      refine hsame ?_
      rw [hanswers.2]
      unfold recordChallengeFailure
      dsimp only
      split_ifs <;> rfl
  | completeEmailChallenge challengeId now maxAttempts newAccount newSession =>
      dsimp only [Answers] at hanswers
      split at hanswers
      next => exact hsame (congrArg _ hanswers.2)
      next completed written hcompleted =>
        cases completeEmailChallenge_eq_ok hcompleted with
        | inl hrefused => exact hsame (congrArg _ (hanswers.2.trans hrefused.2))
        | inr hsome =>
            obtain ⟨_, _, located, account, _, inserted, _, _, _, _, hlocated, _, hinserted, _,
              hafter⟩ := hsome
            obtain ⟨accounts, hlocation⟩ := (accountForEmail_eq_ok hlocated).2.1
            obtain ⟨sessions, hsessions, _, hwritten⟩ := insertSession_eq_ok hinserted
            refine hsame ?_
            rw [hanswers.2, hafter, hwritten, hlocation]
            rfl
  | createSession newSession =>
      dsimp only [Answers] at hanswers
      split at hanswers
      next => exact hsame (congrArg _ hanswers.2)
      next written hinserted =>
        obtain ⟨sessions, hsessions, _, hwritten⟩ := insertSession_eq_ok hinserted
        exact hsame (by rw [hanswers.2, hwritten])
  | session accountId sessionId => exact hsame (congrArg _ hanswers.2)
  | listSessions accountId => exact hsame (congrArg _ hanswers.2)
  | touchSession accountId sessionId lastSeenAt expiresAt =>
      refine hsame ?_
      rw [hanswers.2]
      rfl
  | revokeSession accountId sessionId revokedAt =>
      refine hsame ?_
      rw [hanswers.2]
      rfl
  | revokeAllSessions accountId revokedAt =>
      refine hsame ?_
      rw [hanswers.2]
      rfl
  | deleteSession accountId sessionId =>
      refine hsame ?_
      rw [hanswers.2]
      rfl
  | passkeyByCredentialId credentialId => exact hsame (congrArg _ hanswers.2)
  | completePasskeySignIn challengeId passkey newSession now =>
      dsimp only [Answers] at hanswers
      split at hanswers
      next => exact hsame (congrArg _ hanswers.2)
      next completed written hcompleted =>
        cases completePasskeySignIn_eq_ok hcompleted with
        | inl hrefused => exact hsame (congrArg _ (hanswers.2.trans hrefused.2))
        | inr hsome =>
            obtain ⟨_, _, _, hkeys, _⟩ := hsome
            exact hsame ((congrArg _ hanswers.2).trans hkeys)
  | apiKey accountId keyId => exact hsame (congrArg _ hanswers.2)
  | touchApiKey accountId keyId lastUsedAt =>
      refine hmodify _ _ (by intro; rfl) (congrArg _ hanswers.2) ?_
      intro key hselected
      simp only [Bool.and_eq_true, Option.isNone_iff_eq_none] at hselected
      exact .touched lastUsedAt hselected.1.2
  | revokeApiKey accountId keyId revokedAt =>
      have hwritten := hanswers.2
      unfold revokeApiKey at hwritten
      dsimp only at hwritten
      split_ifs at hwritten
      · exact hsame (congrArg _ hwritten)
      · refine hmodify _ _ (by intro; rfl) (congrArg _ hwritten) ?_
        intro key hselected
        simp only [Bool.and_eq_true, decide_eq_true_eq, Option.isNone_iff_eq_none] at hselected
        obtain ⟨⟨hid, haccount⟩, hlive⟩ := hselected
        exact .revoked revokedAt hlive (by rw [hid, haccount])
  | purgeExpired now =>
      refine hsame ?_
      rw [hanswers.2]
      rfl

/-- No call removes an account or changes its email or status. -/
theorem Answers.account_stays {account : Account} (hanswers : db.Answers call reply after)
    (hbefore : db.accounts.find? account.id = some account) :
    ∃ next, after.accounts.find? account.id = some next ∧ AccountStep account next := by
  have hsame : after.accounts = db.accounts →
      ∃ next, after.accounts.find? account.id = some next ∧ AccountStep account next := by
    intro hsame
    rw [hsame]
    exact ⟨account, hbefore, .kept⟩
  have hmodify : ∀ (accounts : AccountTable) (p : Account → Bool) (now : Time),
      accounts.find? account.id = some account →
        ∃ next, (accounts.modify p fun row =>
          { row with updatedAt := now, lastAuthenticatedAt := now }).find? account.id = some next ∧
            AccountStep account next := by
    intro accounts p now hfind
    unfold AccountTable.find? at hfind ⊢
    unfold AccountTable.modify
    dsimp only
    rw [KeyedTable.find?_modify, hfind]
    refine ⟨_, rfl, ?_⟩
    dsimp only
    split_ifs
    · exact .authenticated now
    · exact .kept
  cases call with
  | accountById accountId => exact hsame (congrArg _ hanswers.2)
  | challengeById challengeId => exact hsame (congrArg _ hanswers.2)
  | createEmailChallenge challenge maxLive => exact hsame (createEmailChallenge_frame hanswers).1
  | recordChallengeFailure challengeId now maxAttempts =>
      refine hsame ?_
      rw [hanswers.2]
      unfold recordChallengeFailure
      dsimp only
      split_ifs <;> rfl
  | completeEmailChallenge challengeId now maxAttempts newAccount newSession =>
      dsimp only [Answers] at hanswers
      split at hanswers
      next => exact hsame (congrArg _ hanswers.2)
      next completed written hcompleted =>
        cases completeEmailChallenge_eq_ok hcompleted with
        | inl hrefused => exact hsame (congrArg _ (hanswers.2.trans hrefused.2))
        | inr hsome =>
            obtain ⟨_, _, located, row, _, inserted, _, _, _, _, hlocated, _, hinserted, _,
              hafter⟩ := hsome
            obtain ⟨sessions, _, _, hwritten⟩ := insertSession_eq_ok hinserted
            have hstayed : located.accounts.find? account.id = some account := by
              cases (accountForEmail_eq_ok hlocated).2.2.1 account.id with
              | inl hkept => exact hkept.trans hbefore
              | inr hnew =>
                  have hnone : db.accounts.find? account.id = none := hnew.1
                  rw [hbefore] at hnone
                  cases hnone
            rw [hanswers.2, hafter, hwritten]
            exact hmodify _ _ now hstayed
  | createSession newSession =>
      dsimp only [Answers] at hanswers
      split at hanswers
      next => exact hsame (congrArg _ hanswers.2)
      next written hinserted =>
        obtain ⟨sessions, hsessions, _, hwritten⟩ := insertSession_eq_ok hinserted
        exact hsame (by rw [hanswers.2, hwritten])
  | session accountId sessionId => exact hsame (congrArg _ hanswers.2)
  | listSessions accountId => exact hsame (congrArg _ hanswers.2)
  | touchSession accountId sessionId lastSeenAt expiresAt =>
      refine hsame ?_
      rw [hanswers.2]
      rfl
  | revokeSession accountId sessionId revokedAt =>
      refine hsame ?_
      rw [hanswers.2]
      rfl
  | revokeAllSessions accountId revokedAt =>
      refine hsame ?_
      rw [hanswers.2]
      rfl
  | deleteSession accountId sessionId =>
      refine hsame ?_
      rw [hanswers.2]
      rfl
  | passkeyByCredentialId credentialId => exact hsame (congrArg _ hanswers.2)
  | completePasskeySignIn challengeId passkey newSession now =>
      dsimp only [Answers] at hanswers
      split at hanswers
      next => exact hsame (congrArg _ hanswers.2)
      next completed written hcompleted =>
        cases completePasskeySignIn_eq_ok hcompleted with
        | inl hrefused => exact hsame (congrArg _ (hanswers.2.trans hrefused.2))
        | inr hsome =>
            obtain ⟨_, _, _, _, haccounts, _⟩ := hsome
            rw [hanswers.2, haccounts]
            exact hmodify _ _ now hbefore
  | apiKey accountId keyId => exact hsame (congrArg _ hanswers.2)
  | touchApiKey accountId keyId lastUsedAt =>
      refine hsame ?_
      rw [hanswers.2]
      rfl
  | revokeApiKey accountId keyId revokedAt =>
      refine hsame ?_
      rw [hanswers.2]
      unfold revokeApiKey
      dsimp only
      split_ifs <;> rfl
  | purgeExpired now =>
      refine hsame ?_
      rw [hanswers.2]
      rfl

end Keys

end IdentityDatabase

end SeizaServer
