import SeizaServer.IdentitySystem
import SeizaServer.SqlxEmailChallenges

/-!
# Email sign-in on the SQLx store

Sign-ins and their completions interleave, one request at a time, and accounts
may be disabled and enabled in between.  A guess is compared with a challenge
that was read before the write, so safety rests on the conditions of the two
updates.
-/

namespace SeizaServer

namespace SqlxSignIn

open Interaction Transition

/-! ## The system -/

/-- The calls of an email sign-in. -/
def EmailCalls : AuthCall → Prop
  | .startEmail .. => True
  | .completeEmail _ => True
  | _ => False

/-- The service with these calls only, and accounts changing their status. -/
def scope (config : AuthConfig) : IdentityScope := ⟨config, EmailCalls, True⟩

abbrev AuthLabel := Label AuthCall AuthRequest AuthRequest.Response AuthError

abbrev AuthState := Configuration AuthCall AuthRequest AuthRequest.Response AuthError
  AuthCall.Result IdentityWorld

abbrev AuthAnswer := (r : AuthRequest) × r.Response

/-- Not a call of the repository. -/
def Plain : AuthRequest → Prop
  | .repository _ => False
  | _ => True

/-- What the two calls ask, knowing these answers. -/
inductive SignInRequest (config : AuthConfig) (call : AuthCall) (known : List AuthAnswer) :
    AuthRequest → Prop where
  | plain (r : AuthRequest) (hplain : Plain r) :
      SignInRequest config call known r
  | read (challengeId : ChallengeId) :
      SignInRequest config call known (.repository (.challengeById challengeId))
  | created (now : Time) (challengeId : ChallengeId) (email linkSecret code : String) :
      SignInRequest config call known (.repository (.createEmailChallenge
        (config.emailChallenge now challengeId email linkSecret code) maxLiveEmailChallenges))
  | failed (challengeId : ChallengeId) (now : Time) : SignInRequest config call known
      (.repository (.recordChallengeFailure challengeId now maxChallengeAttempts))
  | completed (credential : EmailCredential) (challengeId : ChallengeId)
      (candidate : CandidateCredential) (now : Time) (challenge : AuthChallenge)
      (emailLookup : String) (accountId : AccountId) (session : AuthSession)
      (hcall : call = .completeEmail credential)
      (hcandidate : config.candidate credential = some (challengeId, candidate))
      (hclock : (⟨.utcNow, now⟩ : AuthAnswer) ∈ known)
      (hread : (⟨.repository (.challengeById challengeId), .ok (some challenge)⟩ : AuthAnswer) ∈
        known)
      (hemail : challenge.emailLookup = some emailLookup)
      (hvalid : config.valid challengeId challenge emailLookup candidate = true) :
      SignInRequest config call known (.repository (.completeEmailChallenge challengeId now
        maxChallengeAttempts (AuthConfig.newAccount accountId emailLookup now) session))

section Requests

variable {config : AuthConfig}

theorem issues_startEmail (email source : String) :
    (config.startEmail email source).IssuesKnowing
      (SignInRequest config (.startEmail email source)) [] := by
  unfold AuthConfig.startEmail
  cases config.normalizeEmail email with
  | none => trivial
  | some email =>
      refine ⟨.plain _ (by exact trivial), fun checked => ?_⟩
      cases checked with
      | error retryAfter => trivial
      | ok _ =>
          refine ⟨.plain _ (by exact trivial), fun now => ⟨.plain _ (by exact trivial), fun challengeId =>
            ⟨.plain _ (by exact trivial), fun linkSecret => ?_⟩⟩⟩
          cases linkSecret with
          | error cause => trivial
          | ok linkSecret =>
              refine ⟨.plain _ (by exact trivial), fun code => ?_⟩
              cases code with
              | error cause => trivial
              | ok code =>
                  refine ⟨.created now challengeId email linkSecret code, fun created => ?_⟩
                  cases created with
                  | error cause => trivial
                  | ok _ =>
                      refine ⟨.plain _ (by exact trivial), fun sent => ?_⟩
                      cases sent with
                      | error cause => trivial
                      | ok _ => trivial

theorem issues_completeEmail (credential : EmailCredential) :
    (config.completeEmail credential).IssuesKnowing
      (SignInRequest config (.completeEmail credential)) [] := by
  refine ⟨.plain _ (by exact trivial), fun now => ?_⟩
  cases hcandidate : config.candidate credential with
  | none =>
      trivial
  | some parsed =>
      obtain ⟨challengeId, candidate⟩ := parsed
      refine ⟨.read challengeId, fun found => ?_⟩
      cases found with
      | error cause => trivial
      | ok found =>
          cases found with
          | none => trivial
          | some challenge =>
              change Program.IssuesKnowing _ (if _ then _ else _ : AuthProgram _) _
              split_ifs
              · trivial
              · cases hemail : challenge.emailLookup with
                | none =>
                    trivial
                | some emailLookup =>
                    change Program.IssuesKnowing _ (if _ then _ else _ : AuthProgram _) _
                    split_ifs with hvalid
                    · refine ⟨.plain _ (by exact trivial), fun accountId => ⟨.plain _ (by exact trivial), fun secret => ?_⟩⟩
                      cases secret with
                      | error cause => trivial
                      | ok secret =>
                          refine ⟨.plain _ (by exact trivial), fun csrfToken => ?_⟩
                          cases csrfToken with
                          | error cause => trivial
                          | ok csrfToken =>
                              refine ⟨.plain _ (by exact trivial), fun sessionId => ⟨.completed credential
                                challengeId candidate now challenge emailLookup accountId _ rfl
                                hcandidate (by simp) (by simp) hemail hvalid, fun completed => ?_⟩⟩
                              cases completed with
                              | error cause => trivial
                              | ok completed =>
                                  cases completed with
                                  | none => trivial
                                  | some completion => trivial
                    · refine ⟨.failed challengeId now, fun recorded => ?_⟩
                      cases recorded with
                      | error cause => trivial
                      | ok recorded => trivial

theorem issues_emailCalls {call : AuthCall} (hcall : EmailCalls call) :
    (call.program config).IssuesKnowing (SignInRequest config call) [] := by
  cases call with
  | startEmail email source => exact issues_startEmail email source
  | completeEmail credential => exact issues_completeEmail credential
  | _ => exact hcall.elim

end Requests

/-! ## What one request does -/

section Served

variable {config : AuthConfig} {call : AuthCall} {known : List AuthAnswer} {pid : ℕ}
  {world after : IdentityWorld}

theorem served_of_plain {r : AuthRequest} {reply : r.Response} (hplain : Plain r)
    (hserves : IdentityWorld.Serves pid world r reply after) : after.db = world.db := by
  cases r with
  | utcNow => rw [hserves.2]
  | nowV7 => rw [hserves.2]
  | randomSecret => rw [show after = world from hserves]
  | randomCode => rw [show after = world from hserves]
  | checkEmailSend source email => rw [show after = world from hserves]
  | sendSignIn email => rw [show after = world from hserves]
  | repository repositoryCall => exact hplain.elim

/-- A repository call is answered, or nothing changes. -/
theorem served_repository {repositoryCall : IdentityCall}
    {reply : Except Fault repositoryCall.Result}
    (hserves : ∃ db, world.db.Serves repositoryCall reply db ∧ after = world.written db) :
    world.db.Answers repositoryCall reply after.db ∨
      ((∃ cause, reply = .error cause) ∧ after.db = world.db) := by
  obtain ⟨db, hanswered, hafter⟩ := hserves
  rw [hafter]
  cases hanswered with
  | inl hanswers => exact .inl hanswers
  | inr hfailed =>
      obtain ⟨⟨message, hreply⟩, hsame⟩ := hfailed
      exact .inr ⟨⟨_, hreply⟩, hsame⟩

/-- A completion succeeds as a whole, or nothing changes. -/
theorem served_completion {challengeId : ChallengeId} {now : Time} {maxAttempts : ℕ}
    {newAccount : Account} {newSession : AuthSession}
    {reply : Except Fault (Option CompletedEmailSignIn)}
    (hserves : ∃ db, world.db.Serves (.completeEmailChallenge challengeId now maxAttempts newAccount
      newSession) reply db ∧ after = world.written db) :
    ((reply = .ok none ∨ ∃ cause, reply = .error cause) ∧ after.db = world.db) ∨
      ∃ completed challenge emailLookup account, reply = .ok (some completed) ∧
        IdentityDatabase.EmailCompletion world.db after.db challengeId now maxAttempts newAccount
          newSession completed challenge emailLookup account := by
  cases served_repository hserves with
  | inr hfailed => exact .inl ⟨.inr hfailed.1, hfailed.2⟩
  | inl hanswers =>
      dsimp only [IdentityDatabase.Answers] at hanswers
      cases hcompleted : world.db.completeEmailChallenge challengeId now maxAttempts newAccount
          newSession with
      | error cause =>
          rw [hcompleted] at hanswers
          exact .inl ⟨.inr ⟨cause, hanswers.1⟩, hanswers.2⟩
      | ok pair =>
          obtain ⟨completed, written⟩ := pair
          rw [hcompleted] at hanswers
          obtain ⟨hreply, hafter⟩ := hanswers
          rw [← hafter] at hcompleted
          cases completed with
          | none =>
              exact .inl ⟨.inl hreply, IdentityDatabase.completeEmailChallenge_none hcompleted⟩
          | some completed =>
              obtain ⟨challenge, emailLookup, account, hcompletion⟩ :=
                IdentityDatabase.completeEmailChallenge_some hcompleted
              exact .inr ⟨completed, challenge, emailLookup, account, hreply, hcompletion⟩

/-- Challenges and accounts persist, and sessions come from completions. -/
structure Keeps (before after : IdentityDatabase) : Prop where
  challenges : IdentityDatabase.ChallengesPersist before after
  accounts : AccountsPersist before.accounts after.accounts

theorem Keeps.refl (db : IdentityDatabase) : Keeps db db := ⟨.refl db, .refl db.accounts⟩

theorem Keeps.trans {first second third : IdentityDatabase} (hfirst : Keeps first second)
    (hsecond : Keeps second third) : Keeps first third :=
  ⟨hfirst.challenges.trans hsecond.challenges, hfirst.accounts.trans hsecond.accounts⟩

theorem keeps_of_served {r : AuthRequest} {reply : r.Response}
    (hrequest : SignInRequest config call known r)
    (hserves : IdentityWorld.Serves pid world r reply after) : Keeps world.db after.db := by
  cases hrequest with
  | plain r hplain =>
      rw [served_of_plain hplain hserves]
      exact .refl _
  | read challengeId =>
      cases served_repository hserves with
      | inl hanswers =>
          rw [hanswers.2]
          exact .refl _
      | inr hfailed =>
          rw [hfailed.2]
          exact .refl _
  | created now challengeId email linkSecret code =>
      cases served_repository hserves with
      | inl hanswers =>
          refine ⟨IdentityDatabase.createEmailChallenge_persist hanswers, ?_⟩
          rw [(IdentityDatabase.createEmailChallenge_frame hanswers).1]
          exact .refl _
      | inr hfailed =>
          rw [hfailed.2]
          exact .refl _
  | failed challengeId now =>
      cases served_repository hserves with
      | inl hanswers =>
          rw [hanswers.2]
          refine ⟨IdentityDatabase.recordChallengeFailure_persist _ _ _ _, ?_⟩
          rw [(IdentityDatabase.recordChallengeFailure_frame _ _ _ _).1]
          exact .refl _
      | inr hfailed =>
          rw [hfailed.2]
          exact .refl _
  | completed credential challengeId candidate now challenge emailLookup accountId session =>
      cases served_completion hserves with
      | inl hrefused =>
          rw [hrefused.2]
          exact .refl _
      | inr hdone =>
          obtain ⟨_, _, _, _, _, hcompletion⟩ := hdone
          exact ⟨hcompletion.challenges_persist, hcompletion.persist⟩

/-- A request that is no completion leaves the sessions alone. -/
theorem sessions_of_served {r : AuthRequest} {reply : r.Response}
    (hrequest : SignInRequest config call known r)
    (hserves : IdentityWorld.Serves pid world r reply after) :
    after.db.authSessions = world.db.authSessions ∨
      ∃ credential challengeId candidate now challenge emailLookup accountId session completed row
        rowEmail account,
        call = .completeEmail credential ∧
        config.candidate credential = some (challengeId, candidate) ∧
        (⟨.utcNow, now⟩ : AuthAnswer) ∈ known ∧
        (⟨.repository (.challengeById challengeId), .ok (some challenge)⟩ : AuthAnswer) ∈ known ∧
        challenge.emailLookup = some emailLookup ∧
        config.valid challengeId challenge emailLookup candidate = true ∧
        IdentityDatabase.EmailCompletion world.db after.db challengeId now maxChallengeAttempts
          (AuthConfig.newAccount accountId emailLookup now) session completed row rowEmail account := by
  cases hrequest with
  | plain r hplain =>
      rw [served_of_plain hplain hserves]
      exact .inl rfl
  | read challengeId =>
      cases served_repository hserves with
      | inl hanswers =>
          rw [hanswers.2]
          exact .inl rfl
      | inr hfailed =>
          rw [hfailed.2]
          exact .inl rfl
  | created now challengeId email linkSecret code =>
      cases served_repository hserves with
      | inl hanswers => exact .inl (IdentityDatabase.createEmailChallenge_frame hanswers).2.1
      | inr hfailed =>
          rw [hfailed.2]
          exact .inl rfl
  | failed challengeId now =>
      cases served_repository hserves with
      | inl hanswers =>
          rw [hanswers.2]
          exact .inl (IdentityDatabase.recordChallengeFailure_frame _ _ _ _).2
      | inr hfailed =>
          rw [hfailed.2]
          exact .inl rfl
  | completed credential challengeId candidate now challenge emailLookup accountId session hcall
      hcandidate hclock hread hemail hvalid =>
      cases served_completion hserves with
      | inl hrefused =>
          rw [hrefused.2]
          exact .inl rfl
      | inr hdone =>
          obtain ⟨completed, row, rowEmail, account, _, hcompletion⟩ := hdone
          exact .inr ⟨credential, challengeId, candidate, now, challenge, emailLookup, accountId,
            session, completed, row, rowEmail, account, hcall, hcandidate, hclock, hread, hemail,
            hvalid, hcompletion⟩

end Served

/-! ## Runs -/

section Runs

variable {config : AuthConfig} {world : IdentityWorld} {before middle after final : AuthState}
  {labels past rest : List AuthLabel} {label : AuthLabel} {pid : ℕ} {challengeId : ChallengeId}

theorem request_of_process
    (hrun : Run (identitySystem (scope config)).Step (.idle world) labels before) {call : AuthCall}
    {r : AuthRequest} {next : r.Response → AuthProgram call.Result}
    (hprocess : before.process pid = some ⟨call, .request r next⟩) :
    SignInRequest config call (answersOf pid labels) r := by
  have hstart := System.start_mem_of_process hrun hprocess
  have hreplayed := System.replays_of_run hrun hprocess
  obtain ⟨front, back, hsplit⟩ := List.append_of_mem hstart
  rw [hsplit] at hrun
  obtain ⟨_, _, _, hstep, _⟩ := run_append.mp hrun
  have hcall : EmailCalls call := by
    cases hstep with
    | start pid call hfree hadmits => exact hadmits
  cases hreplayed with
  | inl hfault =>
      obtain ⟨cause, hfault⟩ := hfault
      cases hfault
  | inr hreplays => exact hreplays.issuesKnowing (issues_emailCalls hcall)

theorem keeps_of_step
    (hpast : Run (identitySystem (scope config)).Step (.idle world) past before)
    (hstep : (identitySystem (scope config)).Step before label after) :
    Keeps before.store.db after.store.db := by
  cases hstep with
  | start pid call hfree hadmits => exact .refl _
  | halt pid call r next cause store hprocess hhalts =>
      have hsame : store = before.store := hhalts
      rw [hsame]
      exact .refl _
  | environment store hmoves =>
      have hdrifts : (scope config).Drifts before.store store := hmoves
      cases hdrifts with
      | tick clock hclock => exact .refl _
      | flip accountId status hflips =>
          refine ⟨.refl _, ?_⟩
          apply AccountsPersist.modify
          · exact fun _ => rfl
          · exact fun _ => rfl
  | ask pid call r next reply store hprocess hanswers =>
      exact keeps_of_served (request_of_process hpast hprocess) hanswers

theorem keeps_of_run
    (hpast : Run (identitySystem (scope config)).Step (.idle world) past middle)
    (hrest : Run (identitySystem (scope config)).Step middle rest final) :
    Keeps middle.store.db final.store.db := by
  apply Run.relates_after hpast (fun first second : AuthState =>
    Keeps first.store.db second.store.db) _ _ _ hrest
  · intro state
    exact .refl _
  · intro first second third hfirst hsecond
    exact hfirst.trans hsecond
  · intro earlier later done performed _ _ hdone hstep
    exact keeps_of_step hdone hstep

/-- A challenge that a process has read is still there. -/
theorem persists_of_read
    (hrun : Run (identitySystem (scope config)).Step (.idle world) labels final)
    {challenge : AuthChallenge}
    (hread : (⟨.repository (.challengeById challengeId), .ok (some challenge)⟩ : AuthAnswer) ∈
      answersOf pid labels) :
    ∃ row, final.store.db.authChallenges.find? challengeId = some row ∧ challenge.Persists row := by
  obtain ⟨first, second, asked, call, next, store, _, hfirst, hprocess, hanswers, hsecond⟩ :=
    System.exists_of_ask hrun (mem_answersOf.mp hread)
  have hrest := run_cons.mpr
    ⟨_, System.Step.ask pid call _ next _ store hprocess hanswers, hsecond⟩
  have hfind : asked.store.db.authChallenges.find? challengeId = some challenge := by
    cases served_repository hanswers with
    | inl hanswered => exact (Except.ok.inj hanswered.1).symm
    | inr hfailed =>
        obtain ⟨cause, hcause⟩ := hfailed.1
        cases hcause
  exact (keeps_of_run hfirst hrest).challenges challengeId challenge hfind

/-- A challenge that was created is still there. -/
theorem persists_of_created
    (hrun : Run (identitySystem (scope config)).Step (.idle world) labels final)
    {challenge : AuthChallenge} {maxLive : ℕ}
    (hcreated : .ask pid (.repository (.createEmailChallenge challenge maxLive)) (.ok ()) ∈ labels) :
    ∃ row, final.store.db.authChallenges.find? challenge.id = some row ∧
      challenge.Persists row := by
  obtain ⟨first, second, asked, call, next, store, _, hfirst, hprocess, hanswers, hsecond⟩ :=
    System.exists_of_ask hrun hcreated
  have hrow : ∃ row, store.db.authChallenges.find? challenge.id = some row ∧
      challenge.Persists row := by
    cases served_repository hanswers with
    | inl hanswered => exact IdentityDatabase.createEmailChallenge_row hanswered
    | inr hfailed =>
        obtain ⟨cause, hcause⟩ := hfailed.1
        cases hcause
  obtain ⟨row, hfind, hpersists⟩ := hrow
  have hstep := System.Step.ask pid call _ next _ store hprocess hanswers
  obtain ⟨later, hlater, hkept⟩ := (keeps_of_run (run_snoc.mpr ⟨asked, hfirst, hstep⟩)
    hsecond).challenges challenge.id row hfind
  exact ⟨later, hlater, hpersists.trans hkept⟩

/-! ### Failures -/

/-- A failure of the challenge was recorded. -/
def recorded (challengeId : ChallengeId) : AuthLabel → Bool
  | .ask _ (.repository (.recordChallengeFailure failed _ _)) (.ok (some _)) => failed = challengeId
  | _ => false

/-- How many failures of the challenge were recorded. -/
def failures (challengeId : ChallengeId) (labels : List AuthLabel) : ℕ :=
  labels.countP (recorded challengeId)

theorem eq_ask_of_recorded (hrecorded : recorded challengeId label = true) :
    ∃ pid now maxAttempts reported, label = .ask pid
      (.repository (.recordChallengeFailure challengeId now maxAttempts)) (.ok (some reported)) := by
  cases label with
  | ask pid r reply =>
      cases r with
      | repository call =>
          cases call with
          | recordChallengeFailure failed now maxAttempts =>
              cases reply with
              | error cause => cases hrecorded
              | ok result =>
                  cases result with
                  | none => cases hrecorded
                  | some reported =>
                      have hsame : failed = challengeId := of_decide_eq_true hrecorded
                      rw [hsame]
                      exact ⟨pid, now, maxAttempts, reported, rfl⟩
          | _ => cases hrecorded
      | _ => cases hrecorded
  | _ => cases hrecorded

/-- A recorded failure counts on a challenge below the limit. -/
theorem counted_of_recorded
    (hpast : Run (identitySystem (scope config)).Step (.idle world) past before)
    (hstep : (identitySystem (scope config)).Step before label after)
    (hrecorded : recorded challengeId label = true) :
    ∃ challenge, before.store.db.authChallenges.find? challengeId = some challenge ∧
      challenge.attempts < maxChallengeAttempts ∧
      after.store.db.authChallenges.find? challengeId =
        some { challenge with attempts := challenge.attempts + 1 } := by
  obtain ⟨pid, now, maxAttempts, reported, hlabel⟩ := eq_ask_of_recorded hrecorded
  subst hlabel
  cases hstep with
  | ask pid call r next reply store hprocess hanswers =>
      have hlimit : maxAttempts = maxChallengeAttempts := by
        have hrequest := request_of_process hpast hprocess
        cases hrequest with
        | plain r hplain => exact hplain.elim
        | failed failed time => rfl
      subst hlimit
      cases served_repository hanswers with
      | inr hfailed =>
          obtain ⟨cause, hcause⟩ := hfailed.1
          cases hcause
      | inl hanswered =>
          obtain ⟨hreply, hafter⟩ := hanswered
          have hsome := (Except.ok.inj hreply).symm
          dsimp only
          rw [hafter]
          exact IdentityDatabase.recordChallengeFailure_some hsome

/-- What counts the failures of a challenge. -/
structure FailuresCounted (challengeId : ChallengeId) (labels : List AuthLabel)
    (db : IdentityDatabase) : Prop where
  limit : failures challengeId labels ≤ maxChallengeAttempts
  absent : db.authChallenges.find? challengeId = none → failures challengeId labels = 0
  attempts : ∀ challenge, db.authChallenges.find? challengeId = some challenge →
    failures challengeId labels ≤ challenge.attempts

theorem failuresCounted_of_run
    (hrun : Run (identitySystem (scope config)).Step (.idle world) labels final) :
    FailuresCounted challengeId labels final.store.db := by
  have hall := Run.invariant (I := fun past (state : AuthState) =>
    Run (identitySystem (scope config)).Step (.idle world) past state ∧
      FailuresCounted challengeId past state.store.db) ?_ ?_ hrun
  · exact hall.2
  · exact ⟨run_nil.mpr rfl, Nat.zero_le _, fun _ => rfl, fun _ _ => Nat.zero_le _⟩
  · intro past before label after hpast hstep
    refine ⟨run_snoc.mpr ⟨before, hpast.1, hstep⟩, ?_⟩
    obtain ⟨hrunPast, hcounted⟩ := hpast
    have hkeeps := (keeps_of_step hrunPast hstep).challenges
    have hcount : failures challengeId (past ++ [label]) =
        failures challengeId past + if recorded challengeId label then 1 else 0 := by
      unfold failures
      rw [List.countP_append, List.countP_singleton]
    by_cases hrecorded : recorded challengeId label = true
    · rw [if_pos hrecorded] at hcount
      obtain ⟨challenge, hbefore, hless, hafter⟩ := counted_of_recorded hrunPast hstep hrecorded
      have hold := hcounted.attempts challenge hbefore
      constructor
      · omega
      · intro hnone
        rw [hafter] at hnone
        cases hnone
      · intro later hlater
        rw [hafter, Option.some.injEq] at hlater
        rw [← hlater, hcount]
        exact Nat.succ_le_succ hold
    · rw [if_neg hrecorded, Nat.add_zero] at hcount
      constructor
      · rw [hcount]
        exact hcounted.limit
      · intro hnone
        rw [hcount]
        apply hcounted.absent
        cases hfind : before.store.db.authChallenges.find? challengeId with
        | none => rfl
        | some challenge =>
            obtain ⟨later, hlater, _⟩ := hkeeps challengeId challenge hfind
            rw [hnone] at hlater
            cases hlater
      · intro later hlater
        rw [hcount]
        cases hfind : before.store.db.authChallenges.find? challengeId with
        | none =>
            rw [hcounted.absent hfind]
            exact Nat.zero_le _
        | some challenge =>
            obtain ⟨found, hfound, hpersists⟩ := hkeeps challengeId challenge hfind
            rw [hlater, Option.some.injEq] at hfound
            rw [hfound]
            exact (hcounted.attempts challenge hfind).trans hpersists.attempts

end Runs

/-! ## Sign-ins -/

/-- A step of a completion with this candidate credential for the challenge
inserts the session. -/
structure Yields (config : AuthConfig) (before after : AuthState) (pid : ℕ)
    (challengeId : ChallengeId) (candidate : CandidateCredential) (session : AuthSession) : Prop where
  completing : ∃ credential program,
    before.process pid = some ⟨.completeEmail credential, program⟩ ∧
      config.candidate credential = some (challengeId, candidate)
  absent : before.store.db.authSessions.find? session.id = none
  put : after.store.db.authSessions.find? session.id = some session

/-- The row that a completion consumes, and the account it signs in. -/
structure SignedIn (config : AuthConfig) (past : List AuthLabel) (pid : ℕ)
    (before after : IdentityDatabase) (challengeId : ChallengeId) (candidate : CandidateCredential)
    (session : AuthSession) (row : AuthChallenge) (emailLookup : String) : Prop where
  found : before.authChallenges.find? challengeId = some row
  purpose : row.purpose = .emailLogin
  email : row.emailLookup = some emailLookup
  unconsumed : row.consumedAt = none
  attempts : row.attempts < maxChallengeAttempts
  valid : config.valid challengeId row emailLookup candidate = true
  expiry : ∃ now, .ask pid .utcNow now ∈ past ∧ now < row.expiresAt
  wasActive : ∀ account, before.accounts.byEmail? emailLookup = some account →
    account.status = .active
  account : ∃ account, after.accounts.byEmail? emailLookup = some account ∧
    session.accountId = account.id ∧ account.status = .active
  siblings : ∀ other sibling, after.authChallenges.find? other = some sibling →
    other = challengeId ∨ (sibling.emailLookup = some emailLookup ∧
      sibling.purpose = .emailLogin) → sibling.consumedAt ≠ none

section SignIns

variable {config : AuthConfig} {world : IdentityWorld} {before after final : AuthState}
  {labels past rest : List AuthLabel} {pid : ℕ} {challengeId : ChallengeId}
  {candidate : CandidateCredential} {session : AuthSession} {r : AuthRequest} {reply : r.Response}

/-- The comparison reads only what persists. -/
theorem valid_of_persists {challenge row : AuthChallenge} (hpersists : challenge.Persists row)
    {emailLookup : String}
    (hvalid : config.valid challengeId challenge emailLookup candidate = true) :
    config.valid challengeId row emailLookup candidate = true := by
  rw [hpersists.same]
  cases candidate with
  | link secret => exact hvalid
  | code email code => exact hvalid

/-- A session appears by a completion that signs in. -/
theorem signedIn_of_session
    (hpast : Run (identitySystem (scope config)).Step (.idle world) past before)
    (hstep : (identitySystem (scope config)).Step before (.ask pid r reply) after)
    {sessionId : SessionId} (hbefore : before.store.db.authSessions.find? sessionId ≠ some session)
    (hafter : after.store.db.authSessions.find? sessionId = some session) :
    ∃ challengeId candidate row emailLookup, session.id = sessionId ∧
      Yields config before after pid challengeId candidate session ∧
      SignedIn config past pid before.store.db after.store.db challengeId candidate session row
        emailLookup := by
  cases hstep with
  | ask pid call r next reply store hprocess hanswers =>
      have hrequest := request_of_process hpast hprocess
      dsimp only at hafter ⊢
      cases sessions_of_served hrequest hanswers with
      | inl hsame =>
          rw [hsame] at hafter
          exact absurd hafter hbefore
      | inr hdone =>
          obtain ⟨credential, challengeId, candidate, now, challenge, emailLookup, accountId,
            newSession, completed, row, rowEmail, account, hcall, hcandidate, hclock, hread, hemail,
            hvalid, hcompletion⟩ := hdone
          subst hcall
          have hsession := hcompletion.sessions sessionId
          rw [hafter] at hsession
          split_ifs at hsession with hid
          · have hsame : session = { newSession with accountId := account.id } :=
              Option.some.inj hsession
            have hsessionId : session.id = sessionId := by
              rw [hsame]
              exact hid
            obtain ⟨found, hfound, hpersists⟩ := persists_of_read hpast hread
            rw [hcompletion.found, Option.some.injEq] at hfound
            subst hfound
            have hsameEmail : rowEmail = emailLookup := by
              have hrow := hcompletion.email
              rw [hpersists.same] at hrow
              exact Option.some.inj (hrow.symm.trans hemail)
            subst hsameEmail
            have hattempt := hcompletion.attemptable
            unfold IdentityDatabase.Attemptable at hattempt
            simp only [Bool.and_eq_true, decide_eq_true_eq, Option.isNone_iff_eq_none] at hattempt
            refine ⟨challengeId, candidate, row, rowEmail, hsessionId, ⟨⟨credential, _, hprocess,
              hcandidate⟩, ?_, ?_⟩, ?_⟩
            · rw [hsessionId, ← hid]
              exact hcompletion.fresh
            · rw [hsessionId]
              exact hafter
            · constructor
              · exact hcompletion.found
              · exact hcompletion.purpose
              · exact hcompletion.email
              · exact hattempt.1.1
              · exact hattempt.2
              · exact valid_of_persists hpersists hvalid
              · exact ⟨now, mem_answersOf.mp hclock, hattempt.1.2⟩
              · intro old hold
                cases hcompletion.located with
                | inl hlocated =>
                    rw [hold, Option.some.injEq] at hlocated
                    rw [hlocated]
                    exact hcompletion.active
                | inr hnew =>
                    rw [hold] at hnew
                    cases hnew.1
              · obtain ⟨later, hlater, hlaterId, hactive⟩ := hcompletion.final
                refine ⟨later, hlater, ?_, hactive⟩
                rw [hsame, hlaterId]
              · intro other sibling hsibling hkind hunconsumed
                rw [hcompletion.challenges] at hsibling
                obtain ⟨earlier, hearlier, hmapped⟩ := Option.map_eq_some_iff.mp hsibling
                have hkey : earlier.id = other := KeyedTable.key_of_find? hearlier
                split_ifs at hmapped with hselected
                · rw [← hmapped] at hunconsumed
                  cases hunconsumed
                · subst hmapped
                  apply hselected
                  cases hkind with
                  | inl hself => exact .inl (hkey.trans hself)
                  | inr hsame => exact .inr ⟨hsame.1, hsame.2, hunconsumed⟩
          · exact absurd hsession.symm hbefore

theorem Yields.signedIn
    (hpast : Run (identitySystem (scope config)).Step (.idle world) past before)
    (hstep : (identitySystem (scope config)).Step before (.ask pid r reply) after)
    (hyields : Yields config before after pid challengeId candidate session) :
    ∃ row emailLookup, SignedIn config past pid before.store.db after.store.db challengeId candidate
      session row emailLookup := by
  obtain ⟨credential, program, hprocess, hcandidate⟩ := hyields.completing
  obtain ⟨otherId, otherCandidate, row, emailLookup, _, hother, hsignedIn⟩ :=
    signedIn_of_session hpast hstep (by simp [hyields.absent]) hyields.put
  obtain ⟨otherCredential, otherProgram, hotherProcess, hotherCandidate⟩ := hother.completing
  rw [hprocess, Option.some.injEq] at hotherProcess
  cases hotherProcess
  rw [hcandidate, Option.some.injEq] at hotherCandidate
  cases hotherCandidate
  exact ⟨row, emailLookup, hsignedIn⟩

/-- The digests tell a credential from the one that was sent. -/
def Distinguishes (config : AuthConfig) (challengeId : ChallengeId) (linkSecret code : String) :
    CandidateCredential → Prop
  | .link secret => config.secretDigest linkSecret = config.secretDigest secret → linkSecret = secret
  | .code _ guess =>
      config.codeDigest challengeId code = config.codeDigest challengeId guess → code = guess

/-- A credential that matches is the one that was sent. -/
theorem sent_of_valid {row : AuthChallenge} {now : Time}
    {email linkSecret code emailLookup : String}
    (hpersists : (config.emailChallenge now challengeId email linkSecret code).Persists row)
    (hemail : row.emailLookup = some emailLookup)
    (hvalid : config.valid challengeId row emailLookup candidate = true)
    (hdistinguishes : Distinguishes config challengeId linkSecret code candidate) :
    candidate = .link linkSecret ∨ candidate = .code email code := by
  have hsame := hpersists.same
  have hrowEmail : row.emailLookup = some email := by rw [hsame]; rfl
  have hlink : row.linkTokenDigest = some (config.secretDigest linkSecret) := by rw [hsame]; rfl
  have hdigest : row.codeDigest = some (config.codeDigest challengeId code) := by rw [hsame]; rfl
  cases candidate with
  | link secret =>
      unfold AuthConfig.valid at hvalid
      rw [hlink] at hvalid
      have hequal : linkSecret = secret := hdistinguishes (of_decide_eq_true hvalid)
      rw [hequal]
      exact .inl rfl
  | code otherEmail guess =>
      unfold AuthConfig.valid at hvalid
      rw [hdigest] at hvalid
      simp only [Bool.and_eq_true, decide_eq_true_eq, Option.any_some] at hvalid
      rw [hrowEmail, Option.some.injEq] at hemail
      have hequal : code = guess := hdistinguishes hvalid.2
      rw [hequal, ← hvalid.1, ← hemail]
      exact .inr rfl

/-- A session that a completion returned was inserted by a step of it. -/
theorem replays_completeEmail {credential : EmailCredential} {answers : List AuthAnswer}
    {value : CompletedBrowserSignIn}
    (hreplays : (config.completeEmail credential).Replays answers (.done value)) :
    ∃ challengeId now newAccount newSession,
      (⟨.repository (.completeEmailChallenge challengeId now maxChallengeAttempts newAccount
        newSession), .ok (some value.completion)⟩ : AuthAnswer) ∈ answers := by
  obtain ⟨now, first, afterClock, hclock, _, hparsing⟩ := hreplays.of_bind
  obtain ⟨parsed, second, afterParsing, hparsed, _, hreading⟩ := hparsing.of_bind
  obtain ⟨challengeId, candidate⟩ := parsed
  obtain ⟨found, third, afterReading, hread, _, hchecking⟩ := Program.Replays.of_bind hreading
  obtain ⟨challenge, fourth, afterFinding, hfinding, _, hfound⟩ := hchecking.of_bind
  dsimp only at hfound
  split_ifs at hfound
  · exact (Program.Replays.of_fault hfound).elim
  · obtain ⟨emailLookup, fifth, afterEmail, hemail, _, hcomparing⟩ := Program.Replays.of_bind hfound
    split_ifs at hcomparing
    · obtain ⟨accountId, sixth, afterDraw, hdraw, _, hminting⟩ := Program.Replays.of_bind hcomparing
      obtain ⟨minted, seventh, afterMinting, hminted, _, hcompleting⟩ := hminting.of_bind
      obtain ⟨newSession, sessionSecret, csrfToken⟩ := minted
      obtain ⟨completed, eighth, afterCall, hcall, hasked, hanswered⟩ :=
        Program.Replays.of_bind hcompleting
      obtain ⟨completion, ninth, afterAll, hall, hsome, hdone⟩ := hanswered.of_bind
      have hvalue := (Program.Replays.of_done hdone).2
      subst hvalue
      obtain ⟨outcome, tail, houtcome, htail⟩ := Program.Replays.of_request hasked
      cases outcome with
      | error cause => exact htail.of_fault.elim
      | ok result =>
          have hresult := (Program.Replays.of_done htail).2
          subst hresult
          cases result with
          | none => exact hsome.of_fault.elim
          | some other =>
              have hother := (Program.Replays.of_done hsome).2
              subst hother
              refine ⟨challengeId, now, AuthConfig.newAccount accountId emailLookup now, newSession, ?_⟩
              rw [hclock, hparsed, hread, hfinding, hemail, hdraw, hminted, hcall, houtcome]
              simp
    · obtain ⟨_, _, _, _, _, hfaulted⟩ := Program.Replays.of_bind hcomparing
      exact (Program.Replays.of_fault hfaulted).elim

/-- What later sign-ins have to do with one. -/
theorem SignedIn.later
    (hpast : Run (identitySystem (scope config)).Step (.idle world) past before)
    (hstep : (identitySystem (scope config)).Step before (.ask pid r reply) after)
    {row : AuthChallenge} {emailLookup : String}
    (hsignedIn : SignedIn config past pid before.store.db after.store.db challengeId candidate
      session row emailLookup) {middle last : AuthState}
    (hrest : Run (identitySystem (scope config)).Step after rest middle) {otherPid : ℕ}
    {otherRequest : AuthRequest} {otherReply : otherRequest.Response}
    (hlast : (identitySystem (scope config)).Step middle (.ask otherPid otherRequest otherReply)
      last) {other : ChallengeId} {otherCandidate : CandidateCredential} {otherSession : AuthSession}
    (hyields : Yields config middle last otherPid other otherCandidate otherSession) :
    other ≠ challengeId ∧
      (∀ sibling, before.store.db.authChallenges.find? other = some sibling →
        sibling.emailLookup ≠ some emailLookup) ∧
      ∀ otherRow, middle.store.db.authChallenges.find? other = some otherRow →
        otherRow.emailLookup = some emailLookup → otherSession.accountId = session.accountId := by
  have hafter := run_snoc.mpr ⟨before, hpast, hstep⟩
  have hmiddle := run_append.mpr ⟨after, hafter, hrest⟩
  obtain ⟨otherRow, otherEmail, hother⟩ := hyields.signedIn hmiddle hlast
  have hkeeps := keeps_of_run hafter hrest
  -- A challenge that was there and is consumed by the step cannot be completed later.
  have hspent : ∀ sibling, before.store.db.authChallenges.find? other = some sibling →
      other = challengeId ∨ sibling.emailLookup = some emailLookup → False := by
    intro sibling hsibling hkind
    obtain ⟨next, hnext, hpersists⟩ := (keeps_of_step hpast hstep).challenges other sibling hsibling
    obtain ⟨found, hfound, hkept⟩ := hkeeps.challenges other next hnext
    rw [hother.found, Option.some.injEq] at hfound
    subst hfound
    refine hkept.consumed (hsignedIn.siblings other next hnext ?_) hother.unconsumed
    cases hkind with
    | inl hself => exact .inl hself
    | inr hemail =>
        refine .inr ⟨?_, ?_⟩
        · rw [hpersists.same]
          exact hemail
        · have hpurpose := hother.purpose
          rw [hkept.same] at hpurpose
          exact hpurpose
  refine ⟨?_, ?_, ?_⟩
  · intro hsame
    have hrow := hsignedIn.found
    rw [← hsame] at hrow
    exact hspent row hrow (.inl hsame)
  · intro sibling hsibling hemail
    exact hspent sibling hsibling (.inr hemail)
  · intro found hfound hemail
    rw [hother.found, Option.some.injEq] at hfound
    subst hfound
    have hsameEmail : otherEmail = emailLookup :=
      Option.some.inj (hother.email.symm.trans hemail)
    subst hsameEmail
    obtain ⟨account, haccount, hid, _⟩ := hsignedIn.account
    obtain ⟨otherAccount, hotherAccount, hotherId, _⟩ := hother.account
    obtain ⟨kept, hkept, hkeptId⟩ := hkeeps.accounts.byEmail? haccount
    obtain ⟨later, hlater, hlaterId⟩ := (keeps_of_step hmiddle hlast).accounts.byEmail? hkept
    rw [hotherAccount, Option.some.injEq] at hlater
    rw [hotherId, hlater, hlaterId, hkeptId, hid]

end SignIns

/-- Email sign-in on SQLx: a challenge fails a bounded number of times; a
session comes from a live challenge and its own credential, for the active
account of the email, and ends all challenges of the email that were there; a
refused completion changes nothing. -/
theorem sqlx_email_sign_in (config : AuthConfig) (world : IdentityWorld) :
    (∀ labels final challengeId,
      Run (identitySystem (scope config)).Step (.idle world) labels final →
        failures challengeId labels ≤ maxChallengeAttempts) ∧
    (∀ past before pid r reply after sessionId session,
      Run (identitySystem (scope config)).Step (.idle world) past before →
      (identitySystem (scope config)).Step before (.ask pid r reply) after →
      before.store.db.authSessions.find? sessionId ≠ some session →
      after.store.db.authSessions.find? sessionId = some session →
        ∃ challengeId candidate, Yields config before after pid challengeId candidate session) ∧
    (∀ past before pid r reply after challengeId candidate session,
      Run (identitySystem (scope config)).Step (.idle world) past before →
      (identitySystem (scope config)).Step before (.ask pid r reply) after →
      Yields config before after pid challengeId candidate session →
        failures challengeId past < maxChallengeAttempts ∧
        (∀ creator now email linkSecret code, .ask creator (.repository (.createEmailChallenge
          (config.emailChallenge now challengeId email linkSecret code) maxLiveEmailChallenges))
            (.ok ()) ∈ past → Distinguishes config challengeId linkSecret code candidate →
              candidate = .link linkSecret ∨ candidate = .code email code) ∧
        ∃ row emailLookup,
          SignedIn config past pid before.store.db after.store.db challengeId candidate session row
            emailLookup ∧
          ∀ rest middle otherPid otherRequest otherReply last other otherCandidate otherSession,
            Run (identitySystem (scope config)).Step after rest middle →
            (identitySystem (scope config)).Step middle (.ask otherPid otherRequest otherReply) last →
            Yields config middle last otherPid other otherCandidate otherSession →
              other ≠ challengeId ∧
              (∀ sibling, before.store.db.authChallenges.find? other = some sibling →
                sibling.emailLookup ≠ some emailLookup) ∧
              ∀ otherRow, middle.store.db.authChallenges.find? other = some otherRow →
                otherRow.emailLookup = some emailLookup →
                  otherSession.accountId = session.accountId) ∧
    (∀ before pid challengeId now maxAttempts newAccount newSession reply after,
      (identitySystem (scope config)).Step before (.ask pid (.repository (.completeEmailChallenge
        challengeId now maxAttempts newAccount newSession)) reply) after →
      (reply = .ok none ∨ ∃ cause, reply = .error cause) → after.store.db = before.store.db) ∧
    ∀ labels final pid credential value,
      Run (identitySystem (scope config)).Step (.idle world) labels final →
      final.process pid = some ⟨.completeEmail credential, .done value⟩ →
      ∃ past r reply rest before after challengeId candidate,
        labels = past ++ .ask pid r reply :: rest ∧
        Run (identitySystem (scope config)).Step (.idle world) past before ∧
        (identitySystem (scope config)).Step before (.ask pid r reply) after ∧
        Run (identitySystem (scope config)).Step after rest final ∧
        Yields config before after pid challengeId candidate value.completion.session := by
  refine ⟨?_, ?_, ?_, ?_, ?_⟩
  · intro labels final challengeId hrun
    exact (failuresCounted_of_run hrun).limit
  · intro past before pid r reply after sessionId session hpast hstep hbefore hafter
    obtain ⟨challengeId, candidate, _, _, _, hyields, _⟩ :=
      signedIn_of_session hpast hstep hbefore hafter
    exact ⟨challengeId, candidate, hyields⟩
  · intro past before pid r reply after challengeId candidate session hpast hstep hyields
    obtain ⟨row, emailLookup, hsignedIn⟩ := hyields.signedIn hpast hstep
    refine ⟨?_, ?_, row, emailLookup, hsignedIn, ?_⟩
    · exact ((failuresCounted_of_run hpast).attempts row hsignedIn.found).trans_lt
        hsignedIn.attempts
    · intro creator now email linkSecret code hcreated hdistinguishes
      obtain ⟨found, hfound, hpersists⟩ := persists_of_created hpast hcreated
      change before.store.db.authChallenges.find? challengeId = some found at hfound
      rw [hsignedIn.found, Option.some.injEq] at hfound
      subst hfound
      exact sent_of_valid hpersists hsignedIn.email hsignedIn.valid hdistinguishes
    · intro rest middle otherPid otherRequest otherReply last other otherCandidate otherSession
        hrest hlast hother
      exact hsignedIn.later hpast hstep hrest hlast hother
  · intro before pid challengeId now maxAttempts newAccount newSession reply after hstep hrefused
    cases hstep with
    | ask pid call r next reply store hprocess hanswers =>
        cases served_completion hanswers with
        | inl hnothing => exact hnothing.2
        | inr hdone =>
            obtain ⟨completed, _, _, _, hreply, _⟩ := hdone
            cases hrefused with
            | inl hnone =>
                rw [hnone] at hreply
                cases hreply
            | inr hfailed =>
                obtain ⟨cause, hcause⟩ := hfailed
                rw [hcause] at hreply
                cases hreply
  · intro labels final pid credential value hrun hdone
    cases System.replays_of_run hrun hdone with
    | inl hfault =>
        obtain ⟨cause, hfault⟩ := hfault
        cases hfault
    | inr hreplays =>
        obtain ⟨challengeId, now, newAccount, newSession, hmem⟩ := replays_completeEmail hreplays
        obtain ⟨past, rest, before, call, next, store, hlabels, hpast, hprocess, hanswers, hrest⟩ :=
          System.exists_of_ask hrun (mem_answersOf.mp hmem)
        have hstep := System.Step.ask pid call _ next _ store hprocess hanswers
        cases served_completion hanswers with
        | inl hnothing =>
            cases hnothing.1 with
            | inl hnone => cases hnone
            | inr hfailed =>
                obtain ⟨cause, hcause⟩ := hfailed
                cases hcause
        | inr hcompleted =>
            obtain ⟨completed, _, _, account, hreply, hcompletion⟩ := hcompleted
            have hsame : completed = value.completion :=
              (Option.some.inj (Except.ok.inj hreply)).symm
            have hsession : value.completion.session =
                { newSession with accountId := account.id } := by
              rw [← hsame, hcompletion.answer]
            have hput := hcompletion.sessions newSession.id
            rw [if_pos rfl, ← hsession] at hput
            obtain ⟨challengeId, candidate, _, _, _, hyields, _⟩ := signedIn_of_session hpast hstep
              (by rw [hcompletion.fresh]; exact nofun) hput
            exact ⟨past, _, _, rest, before, _, challengeId, candidate, hlabels, hpast, hstep, hrest,
              hyields⟩

/-- A service whose digests are the texts themselves. -/
def plainConfig : AuthConfig := ⟨fun _ => none, id, fun _ => true, id, fun _ code => code⟩

/-- A run in which an address without an account signs in with its code. -/
theorem sqlx_email_sign_in_code :
    ∃ labels final, ∃ value : CompletedBrowserSignIn,
      Run (identitySystem (scope plainConfig)).Step (.idle (.challenged plainConfig)) labels final ∧
      final.process 0 = some ⟨codeSignIn, .done value⟩ ∧
      final.store.db.authSessions.rows.map AuthSession.id = [2] ∧
      failures 9 labels ≤ 5 ∧
      ∃ past r reply rest before after challengeId candidate,
        labels = past ++ .ask 0 r reply :: rest ∧
        (identitySystem (scope plainConfig)).Step before (.ask 0 r reply) after ∧
        Yields plainConfig before after 0 challengeId candidate value.completion.session := by
  have hdone : plainConfig.signIn.2.toBool = true := by decide +kernel
  have hsession : plainConfig.signIn.1.db.authSessions.rows.map AuthSession.id = [2] := by
    decide +kernel
  have hlaws := sqlx_email_sign_in plainConfig (.challenged plainConfig)
  cases hvalue : plainConfig.signIn.2 with
  | error cause =>
      rw [hvalue] at hdone
      cases hdone
  | ok value =>
      have hadmits : (scope plainConfig).admits codeSignIn := trivial
      have hsignIn : plainConfig.signIn = (plainConfig.signIn.1, .ok value) := by rw [← hvalue]
      obtain ⟨labels, hrun⟩ := exists_signIn_run hadmits hsignIn
      obtain ⟨past, r, reply, rest, before, after, challengeId, candidate, hlabels, _, hstep, _,
        hyields⟩ := hlaws.2.2.2.2 _ _ 0 _ value hrun rfl
      exact ⟨_, _, value, hrun, rfl, hsession, hlaws.1 _ _ 9 hrun, past, r,
        reply, rest, before, after, challengeId, candidate, hlabels, hstep, hyields⟩

end SqlxSignIn

end SeizaServer
