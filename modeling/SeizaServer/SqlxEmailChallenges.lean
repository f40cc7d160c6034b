import SeizaServer.SqlxIdentityEffects

/-!
# Email challenges on the SQLx store

What the three calls of an email sign-in do to challenges, accounts and
sessions.  No challenge is ever removed by them, and what is consumed stays
consumed.
-/

namespace SeizaServer

/-- A later state of the row of a challenge. -/
structure AuthChallenge.Persists (challenge later : AuthChallenge) : Prop where
  same : later = { challenge with attempts := later.attempts, consumedAt := later.consumedAt }
  attempts : challenge.attempts ≤ later.attempts
  consumed : challenge.consumedAt ≠ none → later.consumedAt ≠ none

theorem AuthChallenge.Persists.refl (challenge : AuthChallenge) : challenge.Persists challenge :=
  ⟨rfl, le_rfl, fun hconsumed => hconsumed⟩

theorem AuthChallenge.Persists.trans {first second third : AuthChallenge}
    (hfirst : first.Persists second) (hsecond : second.Persists third) : first.Persists third := by
  constructor
  · rw [hsecond.same, hfirst.same]
  · exact hfirst.attempts.trans hsecond.attempts
  · exact fun hconsumed => hsecond.consumed (hfirst.consumed hconsumed)

/-- A row that an update may have consumed. -/
theorem AuthChallenge.Persists.of_consume (challenge : AuthChallenge) (selected : Bool)
    (now : Time) :
    challenge.Persists (if selected then { challenge with consumedAt := some now } else challenge) := by
  cases selected with
  | true => exact ⟨rfl, le_rfl, fun _ => nofun⟩
  | false => exact .refl challenge

namespace AccountTable

/-- The account of an email is the row with that email. -/
theorem byEmail?_eq_some_iff {accounts : AccountTable} {emailLookup : String} {account : Account} :
    accounts.byEmail? emailLookup = some account ↔
      accounts.find? account.id = some account ∧ account.emailLookup = emailLookup := by
  constructor
  · intro hfind
    have hmem := List.mem_of_find?_eq_some hfind
    refine ⟨KeyedTable.find?_of_mem hmem, ?_⟩
    simpa using List.find?_some hfind
  · intro hfind
    have hmem := KeyedTable.mem_of_find? hfind.1
    cases hfound : accounts.byEmail? emailLookup with
    | none =>
        have habsent := List.find?_eq_none.mp hfound account hmem
        simp [hfind.2] at habsent
    | some other =>
        have hother := List.mem_of_find?_eq_some hfound
        have hemail : other.emailLookup = emailLookup := by
          simpa using List.find?_some hfound
        rw [List.inj_on_of_nodup_map accounts.emails hother hmem (hemail.trans hfind.2.symm)]

theorem find?_modify (accounts : AccountTable) (p : Account → Bool) (f : Account → Account)
    (hid : ∀ account, (f account).id = account.id)
    (hemail : ∀ account, (f account).emailLookup = account.emailLookup)
    (hhandle : ∀ account, (f account).webauthnUserHandle = account.webauthnUserHandle)
    (accountId : AccountId) :
    (accounts.modify p f hid hemail hhandle).find? accountId =
      (accounts.find? accountId).map fun account => if p account then f account else account :=
  KeyedTable.find?_modify _ _ _ hid _

end AccountTable

/-- An account with the same identifier and email. -/
def SameAccount (account later : Account) : Prop :=
  later.id = account.id ∧ later.emailLookup = account.emailLookup

/-- Accounts stay, with their emails. -/
def AccountsPersist (before after : AccountTable) : Prop :=
  ∀ account, before.find? account.id = some account →
    ∃ later, after.find? account.id = some later ∧ SameAccount account later

theorem AccountsPersist.refl (accounts : AccountTable) : AccountsPersist accounts accounts :=
  fun account hfind => ⟨account, hfind, rfl, rfl⟩

theorem AccountsPersist.trans {first second third : AccountTable}
    (hfirst : AccountsPersist first second) (hsecond : AccountsPersist second third) :
    AccountsPersist first third := by
  intro account hfind
  obtain ⟨middle, hmiddle, hid, hemail⟩ := hfirst account hfind
  rw [← hid] at hmiddle
  obtain ⟨later, hlater, hlaterId, hlaterEmail⟩ := hsecond middle hmiddle
  rw [hid] at hlater
  exact ⟨later, hlater, hlaterId.trans hid, hlaterEmail.trans hemail⟩

theorem AccountsPersist.byEmail? {before after : AccountTable}
    (hpersist : AccountsPersist before after) {emailLookup : String} {account : Account}
    (hfind : before.byEmail? emailLookup = some account) :
    ∃ later, after.byEmail? emailLookup = some later ∧ later.id = account.id := by
  obtain ⟨hrow, hemail⟩ := AccountTable.byEmail?_eq_some_iff.mp hfind
  obtain ⟨later, hlater, hid, hsame⟩ := hpersist account hrow
  rw [← hid] at hlater
  exact ⟨later, AccountTable.byEmail?_eq_some_iff.mpr ⟨hlater, hsame.trans hemail⟩, hid⟩

theorem AccountsPersist.modify (accounts : AccountTable) (p : Account → Bool)
    (f : Account → Account) (hid : ∀ account, (f account).id = account.id)
    (hemail : ∀ account, (f account).emailLookup = account.emailLookup)
    (hhandle : ∀ account, (f account).webauthnUserHandle = account.webauthnUserHandle) :
    AccountsPersist accounts (accounts.modify p f hid hemail hhandle) := by
  intro account hfind
  rw [AccountTable.find?_modify, hfind]
  refine ⟨_, rfl, ?_⟩
  dsimp only
  split_ifs
  · exact ⟨hid account, hemail account⟩
  · exact ⟨rfl, rfl⟩

namespace IdentityDatabase

variable {db after : IdentityDatabase}

/-- Challenges stay, and what is consumed stays consumed. -/
def ChallengesPersist (before after : IdentityDatabase) : Prop :=
  ∀ challengeId challenge, before.authChallenges.find? challengeId = some challenge →
    ∃ later, after.authChallenges.find? challengeId = some later ∧ challenge.Persists later

theorem ChallengesPersist.refl (db : IdentityDatabase) : ChallengesPersist db db :=
  fun _ challenge hfind => ⟨challenge, hfind, .refl challenge⟩

theorem ChallengesPersist.trans {first second third : IdentityDatabase}
    (hfirst : ChallengesPersist first second) (hsecond : ChallengesPersist second third) :
    ChallengesPersist first third := by
  intro challengeId challenge hfind
  obtain ⟨middle, hmiddle, hbefore⟩ := hfirst challengeId challenge hfind
  obtain ⟨later, hlater, hafter⟩ := hsecond challengeId middle hmiddle
  exact ⟨later, hlater, hbefore.trans hafter⟩

theorem find?_consume (db : IdentityDatabase) (selected : AuthChallenge → Bool) (now : Time)
    (challengeId : ChallengeId) :
    (db.consume selected now).authChallenges.find? challengeId =
      (db.authChallenges.find? challengeId).map fun challenge =>
        if selected challenge then { challenge with consumedAt := some now } else challenge :=
  KeyedTable.find?_modify _ _ _ (by intro row; rfl) _

theorem challengesPersist_consume (db : IdentityDatabase) (selected : AuthChallenge → Bool)
    (now : Time) : ChallengesPersist db (db.consume selected now) := by
  intro challengeId challenge hfind
  rw [find?_consume, hfind]
  exact ⟨_, rfl, .of_consume challenge (selected challenge) now⟩

/-! ## Creation -/

/-- A call that creates a challenge inserts its row and consumes others. -/
theorem createEmailChallenge_inserted {challenge : AuthChallenge} {maxLive : ℕ}
    {reply : Except Fault Unit} (hcreate : db.CreateEmailChallenge challenge maxLive reply after) :
    ((∃ cause, reply = .error cause) ∧ after = db) ∨
      reply = .ok () ∧ ∃ inserted live, db.insertChallenge challenge = .ok inserted ∧
        inserted.LiveChallenges challenge.emailLookup challenge.createdAt live ∧
        after = inserted.evict live maxLive challenge.createdAt := by
  unfold CreateEmailChallenge at hcreate
  split_ifs at hcreate
  · exact .inl ⟨⟨_, hcreate.1⟩, hcreate.2⟩
  · exact .inl ⟨⟨_, hcreate.1⟩, hcreate.2⟩
  · exact .inl ⟨⟨_, hcreate.1⟩, hcreate.2⟩
  · split at hcreate
    next cause hcause => exact .inl ⟨⟨cause, hcreate.1⟩, hcreate.2⟩
    next inserted hinserted =>
      obtain ⟨hreply, live, hlive, hafter⟩ := hcreate
      exact .inr ⟨hreply, inserted, live, hinserted, hlive, hafter⟩

theorem find?_insertChallenge {challenge : AuthChallenge}
    (hinsert : db.insertChallenge challenge = .ok after) (challengeId : ChallengeId) :
    after.authChallenges.find? challengeId =
      if challenge.id = challengeId then some challenge
      else db.authChallenges.find? challengeId := by
  obtain ⟨challenges, hchallenges, hafter⟩ := insertChallenge_eq_ok hinsert
  rw [hafter]
  exact KeyedTable.find?_insert? hchallenges challengeId

theorem createEmailChallenge_persist {challenge : AuthChallenge} {maxLive : ℕ}
    {reply : Except Fault Unit} (hcreate : db.CreateEmailChallenge challenge maxLive reply after) :
    ChallengesPersist db after := by
  cases createEmailChallenge_inserted hcreate with
  | inl hrefused =>
      rw [hrefused.2]
      exact .refl db
  | inr hdone =>
      obtain ⟨_, inserted, live, hinsert, _, hafter⟩ := hdone
      rw [hafter]
      refine ChallengesPersist.trans ?_ (challengesPersist_consume inserted _ _)
      obtain ⟨challenges, hchallenges, _⟩ := insertChallenge_eq_ok hinsert
      have hfresh := KeyedTable.fresh_of_insert? hchallenges
      intro challengeId row hfind
      rw [find?_insertChallenge hinsert]
      split_ifs with hid
      · rw [← hid, hfresh] at hfind
        cases hfind
      · exact ⟨row, hfind, .refl row⟩

/-- The row of a challenge that was created. -/
theorem createEmailChallenge_row {challenge : AuthChallenge} {maxLive : ℕ}
    (hcreate : db.CreateEmailChallenge challenge maxLive (.ok ()) after) :
    ∃ later, after.authChallenges.find? challenge.id = some later ∧ challenge.Persists later := by
  cases createEmailChallenge_inserted hcreate with
  | inl hrefused =>
      obtain ⟨cause, hcause⟩ := hrefused.1
      cases hcause
  | inr hdone =>
      obtain ⟨_, inserted, live, hinsert, _, hafter⟩ := hdone
      rw [hafter]
      apply challengesPersist_consume inserted
      rw [find?_insertChallenge hinsert, if_pos rfl]

/-! ## Failures -/

theorem find?_recordChallengeFailure (db : IdentityDatabase) (challengeId other : ChallengeId)
    (now : Time) (maxAttempts : ℕ) :
    (db.recordChallengeFailure challengeId now maxAttempts).2.authChallenges.find? other =
      (db.authChallenges.find? other).map fun challenge =>
        if challenge.id = challengeId ∧ Attemptable now maxAttempts challenge = true then
          { challenge with attempts := challenge.attempts + 1 }
        else challenge := by
  have hmodified : ∀ challenges : KeyedTable AuthChallenge ChallengeId AuthChallenge.id,
      (challenges.modify (fun challenge : AuthChallenge =>
          challenge.id = challengeId && Attemptable now maxAttempts challenge) fun challenge =>
            { challenge with attempts := challenge.attempts + 1 }).find? other =
        (challenges.find? other).map fun challenge =>
          if challenge.id = challengeId ∧ Attemptable now maxAttempts challenge = true then
            { challenge with attempts := challenge.attempts + 1 }
          else challenge := by
    intro challenges
    rw [KeyedTable.find?_modify]
    simp only [Bool.and_eq_true, decide_eq_true_eq]
  unfold recordChallengeFailure
  dsimp only
  split_ifs with haffected
  · -- No row is selected, so the update would have changed nothing.
    cases hfind : db.authChallenges.find? other with
    | none => rfl
    | some challenge =>
        rw [Option.map_some, if_neg]
        intro hselected
        have hnone := List.countP_eq_zero.mp haffected challenge (KeyedTable.mem_of_find? hfind)
        simp [hselected.1, hselected.2] at hnone
  · exact hmodified db.authChallenges

theorem recordChallengeFailure_persist (db : IdentityDatabase) (challengeId : ChallengeId)
    (now : Time) (maxAttempts : ℕ) :
    ChallengesPersist db (db.recordChallengeFailure challengeId now maxAttempts).2 := by
  intro other challenge hfind
  rw [find?_recordChallengeFailure, hfind]
  refine ⟨_, rfl, ?_⟩
  dsimp only
  split_ifs
  · exact ⟨rfl, Nat.le_succ _, fun hconsumed => hconsumed⟩
  · exact .refl challenge

/-- A failure that is reported counts on a challenge below the limit. -/
theorem recordChallengeFailure_some {challengeId : ChallengeId} {now : Time} {maxAttempts : ℕ}
    {reported : AuthChallenge}
    (hsome : (db.recordChallengeFailure challengeId now maxAttempts).1 = some reported) :
    ∃ challenge, db.authChallenges.find? challengeId = some challenge ∧
      challenge.attempts < maxAttempts ∧
      (db.recordChallengeFailure challengeId now maxAttempts).2.authChallenges.find? challengeId =
        some { challenge with attempts := challenge.attempts + 1 } := by
  unfold recordChallengeFailure at hsome
  dsimp only at hsome
  split_ifs at hsome with haffected
  obtain ⟨row, hmem, hselected⟩ := List.countP_pos_iff.mp (Nat.pos_of_ne_zero haffected)
  simp only [Bool.and_eq_true, decide_eq_true_eq] at hselected
  have hfind := KeyedTable.find?_of_mem hmem
  rw [hselected.1] at hfind
  refine ⟨row, hfind, ?_, ?_⟩
  · have hattempt := hselected.2
    unfold Attemptable at hattempt
    simp only [Bool.and_eq_true, decide_eq_true_eq] at hattempt
    exact hattempt.2
  · rw [find?_recordChallengeFailure, hfind, Option.map_some, if_pos hselected]

theorem recordChallengeFailure_frame (db : IdentityDatabase) (challengeId : ChallengeId)
    (now : Time) (maxAttempts : ℕ) :
    (db.recordChallengeFailure challengeId now maxAttempts).2.accounts = db.accounts ∧
      (db.recordChallengeFailure challengeId now maxAttempts).2.authSessions = db.authSessions := by
  unfold recordChallengeFailure
  dsimp only
  split_ifs
  · exact ⟨rfl, rfl⟩
  · exact ⟨rfl, rfl⟩

/-! ## Completion -/

/-- What a completion that succeeds has found and does. -/
structure EmailCompletion (db after : IdentityDatabase) (challengeId : ChallengeId) (now : Time)
    (maxAttempts : ℕ) (newAccount : Account) (newSession : AuthSession)
    (completed : CompletedEmailSignIn) (challenge : AuthChallenge) (emailLookup : String)
    (account : Account) : Prop where
  found : db.authChallenges.find? challengeId = some challenge
  email : challenge.emailLookup = some emailLookup
  purpose : challenge.purpose = .emailLogin
  attemptable : Attemptable now maxAttempts challenge = true
  located : db.accounts.byEmail? emailLookup = some account ∨
    (db.accounts.byEmail? emailLookup = none ∧ account = newAccount)
  active : account.status = .active
  answer : completed = ⟨{ account with updatedAt := now, lastAuthenticatedAt := now },
    { newSession with accountId := account.id }, completed.accountCreated⟩
  fresh : db.authSessions.find? newSession.id = none
  sessions : ∀ sessionId, after.authSessions.find? sessionId =
    if newSession.id = sessionId then some { newSession with accountId := account.id }
    else db.authSessions.find? sessionId
  challenges : ∀ other, after.authChallenges.find? other =
    (db.authChallenges.find? other).map fun row =>
      if row.id = challengeId ∨ (row.emailLookup = some emailLookup ∧ row.purpose = .emailLogin ∧
          row.consumedAt = none) then { row with consumedAt := some now }
      else row
  persist : AccountsPersist db.accounts after.accounts
  final : ∃ later, after.accounts.byEmail? emailLookup = some later ∧ later.id = account.id ∧
    later.status = .active

theorem completeEmailChallenge_some {challengeId : ChallengeId} {now : Time} {maxAttempts : ℕ}
    {newAccount : Account} {newSession : AuthSession} {completed : CompletedEmailSignIn}
    (hcompleted : db.completeEmailChallenge challengeId now maxAttempts newAccount newSession =
      .ok (some completed, after)) :
    ∃ challenge emailLookup account, EmailCompletion db after challengeId now maxAttempts newAccount
      newSession completed challenge emailLookup account := by
  cases completeEmailChallenge_eq_ok hcompleted with
  | inl hnone => cases hnone.1
  | inr hdone =>
      obtain ⟨challenge, emailLookup, located, account, accountCreated, inserted, hfound, hemail,
        hpurpose, hattempt, hlocated, hactive, hinserted, hanswer, hafter⟩ := hdone
      obtain ⟨hbyEmail, haccounts, hrows, horigin⟩ := accountForEmail_eq_ok hlocated
      obtain ⟨accounts, haccounts⟩ := haccounts
      subst haccounts
      obtain ⟨sessions, hsessions, _, hinsertedSame⟩ := insertSession_eq_ok hinserted
      subst hinsertedSame
      subst hafter
      have hanswerSame := Option.some.inj hanswer
      have hlocatedPersist : AccountsPersist db.accounts accounts := by
        intro row hfind
        cases hrows row.id with
        | inl hsame => exact ⟨row, hsame.trans hfind, rfl, rfl⟩
        | inr hnew =>
            have hnone : db.accounts.find? row.id = none := hnew.1
            rw [hfind] at hnone
            cases hnone
      have hfresh := KeyedTable.fresh_of_insert? hsessions
      have hmodified : AccountsPersist accounts (accounts.modify (fun row => row.id = account.id)
          fun row => { row with updatedAt := now, lastAuthenticatedAt := now }) := by
        apply AccountsPersist.modify
      refine ⟨challenge, emailLookup, account, hfound, hemail, hpurpose, hattempt, horigin, hactive,
        ?_, hfresh, KeyedTable.find?_insert? hsessions, ?_,
        hlocatedPersist.trans hmodified, ?_⟩
      · rw [hanswerSame]
      · intro other
        change ((db.consume (fun row => row.id = challengeId) now).consume _ now).authChallenges.find?
          other = _
        rw [find?_consume, find?_consume, Option.map_map]
        congr 1
        funext row
        by_cases hid : row.id = challengeId
        · simp [hid]
        · simp [hid, and_assoc]
      · obtain ⟨hrow, hrowEmail⟩ := AccountTable.byEmail?_eq_some_iff.mp hbyEmail
        refine ⟨{ account with updatedAt := now, lastAuthenticatedAt := now }, ?_, rfl, hactive⟩
        rw [AccountTable.byEmail?_eq_some_iff]
        refine ⟨?_, hrowEmail⟩
        have hupdated : (accounts.modify (fun row => row.id = account.id) fun row =>
            { row with updatedAt := now, lastAuthenticatedAt := now }).find? account.id =
              some { account with updatedAt := now, lastAuthenticatedAt := now } := by
          rw [AccountTable.find?_modify, show accounts.find? account.id = some account from hrow]
          simp
        exact hupdated

/-- A completion that is refused writes nothing. -/
theorem completeEmailChallenge_none {challengeId : ChallengeId} {now : Time} {maxAttempts : ℕ}
    {newAccount : Account} {newSession : AuthSession}
    (hcompleted : db.completeEmailChallenge challengeId now maxAttempts newAccount newSession =
      .ok (none, after)) : after = db := by
  cases completeEmailChallenge_eq_ok hcompleted with
  | inl hnone => exact hnone.2
  | inr hdone =>
      obtain ⟨_, _, _, _, _, _, _, _, _, _, _, _, _, hanswer, _⟩ := hdone
      cases hanswer

theorem EmailCompletion.challenges_persist {challengeId : ChallengeId} {now : Time}
    {maxAttempts : ℕ} {newAccount : Account} {newSession : AuthSession}
    {completed : CompletedEmailSignIn} {challenge : AuthChallenge} {emailLookup : String}
    {account : Account} (hcompletion : EmailCompletion db after challengeId now maxAttempts
      newAccount newSession completed challenge emailLookup account) : ChallengesPersist db after := by
  intro other row hfind
  rw [hcompletion.challenges, hfind]
  refine ⟨_, rfl, ?_⟩
  dsimp only
  split_ifs
  · exact ⟨rfl, le_rfl, fun _ => nofun⟩
  · exact .refl row

end IdentityDatabase

end SeizaServer
