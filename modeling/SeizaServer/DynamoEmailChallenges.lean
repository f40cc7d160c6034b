import SeizaServer.DynamoIdentityRepository
import SeizaServer.InterleavedPrograms

/-!
# Email challenges on DynamoDB

The challenges of an email are separate items, and a tracker lists the newest.
Whatever calls interleave, no usable challenge is outside its tracker, a
completion leaves none of the older ones usable, and the items of an account
name each other.
-/

namespace SeizaServer

open Interaction Transition TransactionalStore

/-! ## Calls -/

inductive EmailCall where
  | createEmailChallenge (challenge : AuthChallenge)
  | recordChallengeFailure (challengeId : ChallengeId) (now : Time)
  | completeEmailChallenge (challengeId : ChallengeId) (now : Time) (newAccount : Account)
      (newSession : AuthSession)

@[reducible] def EmailCall.Result : EmailCall → Type
  | .createEmailChallenge _ => Unit
  | .recordChallengeFailure .. => Option AuthChallenge
  | .completeEmailChallenge .. => Option CompletedEmailSignIn

/-- The digest of lookup keys and the limits of the service. -/
structure EmailScope where
  lookupDigest : String → String
  maxLive : ℕ
  maxAttempts : ℕ

def EmailCall.program (scope : EmailScope) : (call : EmailCall) → TableProgram call.Result
  | .createEmailChallenge challenge =>
      DynamoIdentity.createEmailChallenge scope.lookupDigest challenge scope.maxLive
  | .recordChallengeFailure challengeId now =>
      DynamoIdentity.recordChallengeFailure challengeId now scope.maxAttempts
  | .completeEmailChallenge challengeId now newAccount newSession =>
      DynamoIdentity.completeEmailChallenge scope.lookupDigest challengeId now scope.maxAttempts
        newAccount newSession

/-- The account keeps its names. -/
structure SameNames (account later : Account) : Prop where
  id : later.id = account.id
  email : later.emailLookup = account.emailLookup
  handle : later.webauthnUserHandle = account.webauthnUserHandle

/-- What the rest of the service does to the table: it changes the status and
the times of accounts, and sessions, passkeys and keys. -/
structure EmailDrift (before after : IdentityTable) : Prop where
  trackers : ∀ digest, after (.tracker digest) = before (.tracker digest)
  challenges : ∀ challengeId, after (.challenge challengeId) = before (.challenge challengeId)
  emailAliases : ∀ digest, after (.emailAlias digest) = before (.emailAlias digest)
  userAliases : ∀ digest, after (.userAlias digest) = before (.userAlias digest)
  profiles : ∀ accountId,
    Option.Rel SameNames (before (.profile accountId)) (after (.profile accountId))

def emailSystem (scope : EmailScope) :
    System EmailCall IdentityRequest (StoreRequest.Response Fault) Fault EmailCall.Result
      IdentityTable where
  body := EmailCall.program scope
  admits := fun _ _ _ => True
  answers := fun _ => Serves
  halts := fun _ before after => after = before
  environment := EmailDrift

abbrev EmailLabel := Label EmailCall IdentityRequest (StoreRequest.Response Fault) Fault

/-- Every challenge is created under an identifier of its own. -/
def FreshChallenges (table : IdentityTable) (labels : List EmailLabel) : Prop :=
  ∀ pid challenge, .start pid (.createEmailChallenge challenge) ∈ labels →
    table (.challenge challenge.id) = none ∧
    ∀ other another, .start other (.createEmailChallenge another) ∈ labels →
      another.id = challenge.id → other = pid

theorem FreshChallenges.mono {table : IdentityTable} {labels more : List EmailLabel}
    (hfresh : FreshChallenges table more) (hsub : ∀ label ∈ labels, label ∈ more) :
    FreshChallenges table labels := by
  intro pid challenge hstart
  have hlabel := hfresh pid challenge (hsub _ hstart)
  exact ⟨hlabel.1, fun other another hother => hlabel.2 other another (hsub _ hother)⟩

/-! ## The requests of the calls -/

/-- What a completion has read about the account. -/
def AccountRead (scope : EmailScope) (known : List IdentityAnswer)
    (view : DynamoIdentity.CompletionView) : Prop :=
  let digest := scope.lookupDigest view.emailLookup
  view.existingAccount.any (fun account => account.status ≠ .active) = false ∧
  ∀ account, view.existingAccount = some account →
    ∃ aliasItem : AccountAlias,
      (⟨.get (.emailAlias digest), .ok (some aliasItem)⟩ : IdentityAnswer) ∈ known ∧
      (⟨.get (.profile aliasItem.accountId), .ok (some account)⟩ : IdentityAnswer) ∈ known

/-- The requests of a call that has seen these answers. -/
inductive EmailRequest (scope : EmailScope) (call : EmailCall) (known : List IdentityAnswer) :
    IdentityRequest → Prop where
  | read (r : IdentityRequest) (hread : r.writes = []) : EmailRequest scope call known r
  | created (challenge : AuthChallenge) (emailLookup : String) (tracker : Option ChallengeTracker)
      (hcall : call = .createEmailChallenge challenge)
      (hpurpose : challenge.purpose = .emailLogin) (hlive : scope.maxLive ≠ 0)
      (hemail : challenge.emailLookup = some emailLookup)
      (htracker : (⟨.get (.tracker (scope.lookupDigest emailLookup)), .ok tracker⟩ :
        IdentityAnswer) ∈ known)
      (hharmless : ∀ answer ∈ known, Harmless answer) : EmailRequest scope call known
        (.transact (DynamoIdentity.createEmailChallengeWrites scope.lookupDigest challenge
          emailLookup scope.maxLive tracker))
  | failed (challengeId : ChallengeId) (now : Time)
      (hcall : call = .recordChallengeFailure challengeId now) : EmailRequest scope call known
      (.writeItem (DynamoIdentity.recordFailureWrite challengeId now scope.maxAttempts))
  | completed (challengeId : ChallengeId) (now : Time) (newAccount : Account)
      (newSession : AuthSession) (view : DynamoIdentity.CompletionView)
      (challenge : AuthChallenge)
      (hcall : call = .completeEmailChallenge challengeId now newAccount newSession)
      (hchallenge : (⟨.get (.challenge challengeId), .ok (some challenge)⟩ : IdentityAnswer) ∈
        known)
      (hcompletable : DynamoIdentity.completable now scope.maxAttempts newAccount challenge =
        some view.emailLookup)
      (htracker : (⟨.get (.tracker (scope.lookupDigest view.emailLookup)), .ok view.tracker⟩ :
        IdentityAnswer) ∈ known)
      (haccount : AccountRead scope known view) : EmailRequest scope call known
        (.transact (DynamoIdentity.completeEmailChallengeWrites scope.lookupDigest challengeId now
          scope.maxAttempts newAccount newSession view))

section Requests

variable {scope : EmailScope} {known : List IdentityAnswer}

theorem issues_createEmailChallenge {challenge : AuthChallenge} {emailLookup : String}
    (hpurpose : challenge.purpose = .emailLogin) (hlive : scope.maxLive ≠ 0)
    (hemail : challenge.emailLookup = some emailLookup) (attempts : ℕ)
    (hharmless : ∀ answer ∈ known, Harmless answer) :
    (DynamoIdentity.createEmailChallengeAttempts scope.lookupDigest challenge emailLookup
      scope.maxLive attempts).IssuesKnowing
        (EmailRequest scope (.createEmailChallenge challenge)) known := by
  induction attempts generalizing known with
  | zero => trivial
  | succ attempts ih =>
      refine ⟨.read _ rfl, fun reply => ?_⟩
      cases reply with
      | error cause => trivial
      | ok tracker =>
          have hread : ∀ answer ∈ known ++ [(⟨.get (.tracker (scope.lookupDigest emailLookup)),
              .ok tracker⟩ : IdentityAnswer)], Harmless answer := by
            intro answer hmem
            rw [List.mem_append, List.mem_singleton] at hmem
            cases hmem with
            | inl hpast => exact hharmless answer hpast
            | inr hlast =>
                rw [hlast]
                exact .inl rfl
          refine ⟨.created challenge emailLookup tracker rfl hpurpose hlive hemail (by simp) hread,
            fun outcome => ?_⟩
          cases outcome with
          | committed => trivial
          | failed cause => trivial
          | canceled reasons =>
              apply ih
              intro answer hmem
              rw [List.mem_append, List.mem_singleton] at hmem
              cases hmem with
              | inl hpast => exact hread answer hpast
              | inr hlast =>
                  rw [hlast]
                  exact .inr ⟨_, reasons, rfl⟩

/-- Reading the account of an email, for what a completion does next. -/
theorem issues_accountByEmailLookup {P : List IdentityAnswer → IdentityRequest → Prop} {α : Type}
    {emailLookup : String} {f : Option Account → TableProgram α}
    (hreads : ∀ known r, r.writes = [] → P known r)
    (hnext : ∀ existingAccount more,
      (∀ account, existingAccount = some account → ∃ aliasItem : AccountAlias,
        (⟨.get (.emailAlias (scope.lookupDigest emailLookup)), .ok (some aliasItem)⟩ :
          IdentityAnswer) ∈ more ∧
        (⟨.get (.profile aliasItem.accountId), .ok (some account)⟩ : IdentityAnswer) ∈ more) →
      (f existingAccount).IssuesKnowing P (known ++ more)) :
    (DynamoIdentity.accountByEmailLookup scope.lookupDigest emailLookup >>= f).IssuesKnowing P
      known := by
  refine ⟨hreads _ _ rfl, fun reply => ?_⟩
  cases reply with
  | error cause => trivial
  | ok found =>
      cases found with
      | none => exact hnext none _ nofun
      | some aliasItem =>
          refine ⟨hreads _ _ rfl, fun reply => ?_⟩
          rw [List.append_assoc]
          cases reply with
          | error cause => trivial
          | ok found =>
              cases found with
              | none => exact hnext none _ nofun
              | some account =>
                  apply hnext (some account)
                  intro other hsame
                  cases hsame
                  exact ⟨aliasItem, by simp, by simp⟩

theorem issues_completeEmailChallenge (challengeId : ChallengeId) (now : Time)
    (newAccount : Account) (newSession : AuthSession) (attempts : ℕ) :
    (DynamoIdentity.completeEmailChallengeAttempts scope.lookupDigest challengeId now
      scope.maxAttempts newAccount newSession attempts).IssuesKnowing
        (EmailRequest scope (.completeEmailChallenge challengeId now newAccount newSession))
        known := by
  induction attempts generalizing known with
  | zero => trivial
  | succ attempts ih =>
      refine ⟨.read _ rfl, fun reply => ?_⟩
      cases reply with
      | error cause => trivial
      | ok found =>
          dsimp only [bind, Program.bind, Program.ofExcept]
          cases hcompletable :
              found.bind (DynamoIdentity.completable now scope.maxAttempts newAccount) with
          | none => trivial
          | some emailLookup =>
              obtain ⟨challenge, hfound, hchecked⟩ := Option.bind_eq_some_iff.mp hcompletable
              subst hfound
              refine ⟨.read _ rfl, fun reply => ?_⟩
              cases reply with
              | error cause => trivial
              | ok tracker =>
                  apply issues_accountByEmailLookup fun _ _ hread => .read _ hread
                  intro existingAccount more hmore
                  split_ifs with hdisabled
                  · trivial
                  · refine ⟨.completed challengeId now newAccount newSession
                      ⟨emailLookup, tracker, existingAccount⟩ challenge rfl (by simp) hchecked
                      (by simp) ⟨by simpa using hdisabled, ?_⟩, fun outcome => ?_⟩
                    · intro account hexisting
                      obtain ⟨aliasItem, halias, hprofile⟩ := hmore account hexisting
                      exact ⟨aliasItem, List.mem_append_right _ halias,
                        List.mem_append_right _ hprofile⟩
                    · cases outcome with
                      | committed => trivial
                      | failed cause => trivial
                      | canceled reasons =>
                          refine ⟨.read _ rfl, fun reply => ?_⟩
                          cases reply with
                          | error cause => trivial
                          | ok again =>
                              change (if again.any _ then _ else _ :
                                TableProgram (Option CompletedEmailSignIn)).IssuesKnowing _ _
                              split_ifs
                              · exact ih
                              · trivial

theorem issues_emailCall (call : EmailCall) :
    (call.program scope).IssuesKnowing (EmailRequest scope call) [] := by
  cases call with
  | createEmailChallenge challenge =>
      change (DynamoIdentity.createEmailChallenge _ _ _).IssuesKnowing _ _
      unfold DynamoIdentity.createEmailChallenge
      split_ifs with hpurpose hlive
      · trivial
      · trivial
      · cases hemail : challenge.emailLookup with
        | none => trivial
        | some emailLookup =>
            apply issues_createEmailChallenge (not_not.mp hpurpose) hlive hemail
            intro answer hmem
            cases hmem
  | recordChallengeFailure challengeId now =>
      refine ⟨.failed challengeId now rfl, fun reply => ?_⟩
      cases reply with
      | error cause => trivial
      | ok written => trivial
  | completeEmailChallenge challengeId now newAccount newSession =>
      exact issues_completeEmailChallenge challengeId now newAccount newSession 5

/-- The tracker that a completion writes. -/
theorem trackerPut_mem (lookupDigest : String → String) (challengeId : ChallengeId) (now : Time)
    (maxAttempts : ℕ) (newAccount : Account) (newSession : AuthSession)
    (view : DynamoIdentity.CompletionView) :
    DynamoIdentity.trackerPut lookupDigest view.emailLookup view.tracker [] ∈
      DynamoIdentity.completeEmailChallengeWrites lookupDigest challengeId now maxAttempts
        newAccount newSession view := by
  apply List.mem_cons_of_mem
  apply List.mem_append_right
  exact List.mem_cons_self

/-- The session that a completion puts. -/
theorem sessionPut_mem (lookupDigest : String → String) (challengeId : ChallengeId) (now : Time)
    (maxAttempts : ℕ) (newAccount : Account) (newSession : AuthSession)
    (view : DynamoIdentity.CompletionView) :
    DynamoIdentity.sessionPut { newSession with
      accountId := (view.existingAccount.getD newAccount).id } ∈
        DynamoIdentity.completeEmailChallengeWrites lookupDigest challengeId now maxAttempts
          newAccount newSession view := by
  apply List.mem_cons_of_mem
  apply List.mem_append_right
  apply List.mem_cons_of_mem
  apply List.mem_append_right
  exact List.mem_singleton_self _

/-- The writes of the calls. -/
inductive EmailWrite (scope : EmailScope) : IdentityWrite → Prop where
  | challengePut (challenge : AuthChallenge) :
      EmailWrite scope (.putNew (.challenge challenge.id) challenge)
  | trackerPut (emailLookup : String) (tracker : Option ChallengeTracker)
      (challengeIds : List ChallengeId) : EmailWrite scope
        (DynamoIdentity.trackerPut scope.lookupDigest emailLookup tracker challengeIds)
  | challengeDelete (challengeId : ChallengeId) :
      EmailWrite scope (DynamoIdentity.challengeDelete challengeId)
  | failure (challengeId : ChallengeId) (now : Time) : EmailWrite scope
      (DynamoIdentity.recordFailureWrite challengeId now scope.maxAttempts)
  | consume (challengeId : ChallengeId) (now : Time) : EmailWrite scope
      (DynamoIdentity.consumeEmailChallenge challengeId now scope.maxAttempts)
  | profilePut (account : Account) : EmailWrite scope (.putNew (.profile account.id) account)
  | emailAliasPut (digest : String) (accountId : AccountId) :
      EmailWrite scope (.putNew (.emailAlias digest) ⟨accountId⟩)
  | userAliasPut (digest : String) (accountId : AccountId) :
      EmailWrite scope (.putNew (.userAlias digest) ⟨accountId⟩)
  | accountUpdate (accountId : AccountId) (now : Time) :
      EmailWrite scope (DynamoIdentity.updateAccount accountId now)
  | sessionPut (session : AuthSession) : EmailWrite scope (DynamoIdentity.sessionPut session)

theorem EmailRequest.emailWrite {call : EmailCall} {r : IdentityRequest}
    (hrequest : EmailRequest scope call known r) {write : IdentityWrite} (hmem : write ∈ r.writes) :
    EmailWrite scope write := by
  cases hrequest with
  | read r hread =>
      rw [hread] at hmem
      cases hmem
  | created challenge emailLookup tracker =>
      change write ∈ _ :: _ :: List.map _ _ at hmem
      rw [List.mem_cons, List.mem_cons, List.mem_map] at hmem
      obtain hput | htracker | hdelete := hmem
      · rw [hput]
        exact .challengePut challenge
      · rw [htracker]
        exact .trackerPut _ _ _
      · obtain ⟨challengeId, _, hsame⟩ := hdelete
        rw [← hsame]
        exact .challengeDelete challengeId
  | failed challengeId now =>
      rw [List.mem_singleton.mp hmem]
      exact .failure challengeId now
  | completed challengeId now newAccount newSession view =>
      change write ∈ _ :: (List.map _ _ ++ _ :: (_ ++ [_])) at hmem
      simp only [List.mem_cons, List.mem_append, List.mem_map, List.not_mem_nil, or_false] at hmem
      obtain hconsume | hdelete | htracker | haccount | hsession := hmem
      · rw [hconsume]
        exact .consume challengeId now
      · obtain ⟨other, _, hsame⟩ := hdelete
        rw [← hsame]
        exact .challengeDelete other
      · rw [htracker]
        exact .trackerPut _ _ _
      · cases hexisting : view.existingAccount with
        | none =>
            rw [hexisting] at haccount
            simp only [DynamoIdentity.accountPuts, List.mem_cons, List.not_mem_nil,
              or_false] at haccount
            obtain hprofile | hemail | huser := haccount
            · rw [hprofile]
              exact .profilePut _
            · rw [hemail]
              exact .emailAliasPut _ _
            · rw [huser]
              exact .userAliasPut _ _
        | some account =>
            rw [hexisting] at haccount
            rw [List.mem_singleton.mp haccount]
            exact .accountUpdate _ now
      · rw [hsession]
        exact .sessionPut _

/-- The writes to a challenge; the call that puts one has not written before. -/
theorem EmailRequest.challengeWrite {call : EmailCall} {r : IdentityRequest}
    (hrequest : EmailRequest scope call known r) {write : IdentityWrite} (hmem : write ∈ r.writes)
    {challengeId : ChallengeId} (hkey : write.key = .challenge challengeId) :
    (∃ challenge, write = .putNew (.challenge challenge.id) challenge ∧
      call = .createEmailChallenge challenge ∧ challenge.id = challengeId ∧
      ∀ answer ∈ known, Harmless answer) ∨
    (∃ now, write = DynamoIdentity.recordFailureWrite challengeId now scope.maxAttempts) ∨
    (∃ now, write = DynamoIdentity.consumeEmailChallenge challengeId now scope.maxAttempts) ∨
    write = DynamoIdentity.challengeDelete challengeId := by
  cases hrequest with
  | read r hread =>
      rw [hread] at hmem
      cases hmem
  | created challenge emailLookup tracker hcall _ _ _ _ hharmless =>
      change write ∈ _ :: _ :: List.map _ _ at hmem
      rw [List.mem_cons, List.mem_cons, List.mem_map] at hmem
      obtain hput | htracker | hdelete := hmem
      · subst hput
        cases hkey
        exact .inl ⟨challenge, rfl, hcall, rfl, hharmless⟩
      · subst htracker
        cases hkey
      · obtain ⟨other, _, hsame⟩ := hdelete
        subst hsame
        cases hkey
        exact .inr (.inr (.inr rfl))
  | failed other now =>
      have hwrite := List.mem_singleton.mp hmem
      subst hwrite
      cases hkey
      exact .inr (.inl ⟨now, rfl⟩)
  | completed other now newAccount newSession view =>
      change write ∈ _ :: (List.map _ _ ++ _ :: (_ ++ [_])) at hmem
      simp only [List.mem_cons, List.mem_append, List.mem_map, List.not_mem_nil, or_false] at hmem
      obtain hconsume | hdelete | htracker | haccount | hsession := hmem
      · subst hconsume
        cases hkey
        exact .inr (.inr (.inl ⟨now, rfl⟩))
      · obtain ⟨another, _, hsame⟩ := hdelete
        subst hsame
        cases hkey
        exact .inr (.inr (.inr rfl))
      · subst htracker
        cases hkey
      · cases hexisting : view.existingAccount with
        | none =>
            rw [hexisting] at haccount
            simp only [DynamoIdentity.accountPuts, List.mem_cons, List.not_mem_nil,
              or_false] at haccount
            obtain hput | hput | hput := haccount
            all_goals
              subst hput
              cases hkey
        | some account =>
            rw [hexisting] at haccount
            have hupdate := List.mem_singleton.mp haccount
            subst hupdate
            cases hkey
      · subst hsession
        cases hkey

end Requests

/-! ## What one request does to an item -/

/-- A later state of the challenge. -/
structure Continues (challenge later : AuthChallenge) : Prop where
  purpose : later.purpose = challenge.purpose
  email : later.emailLookup = challenge.emailLookup
  attempts : challenge.attempts ≤ later.attempts
  consumed : challenge.consumedAt.isSome → later.consumedAt.isSome

theorem Continues.refl (challenge : AuthChallenge) : Continues challenge challenge :=
  ⟨rfl, rfl, le_rfl, id⟩

theorem Continues.trans {first second third : AuthChallenge} (hfirst : Continues first second)
    (hsecond : Continues second third) : Continues first third :=
  ⟨hsecond.purpose.trans hfirst.purpose, hsecond.email.trans hfirst.email,
    hfirst.attempts.trans hsecond.attempts,
    fun hconsumed => hsecond.consumed (hfirst.consumed hconsumed)⟩

/-- Trackers only get new versions, and aliases and accounts keep their names. -/
structure TableGrows (before after : IdentityTable) : Prop where
  tracker : ∀ digest tracker, before (.tracker digest) = some tracker →
    ∃ later, after (.tracker digest) = some later ∧
      (later = tracker ∨ tracker.version < later.version)
  emailAlias : ∀ digest aliasItem, before (.emailAlias digest) = some aliasItem →
    after (.emailAlias digest) = some aliasItem
  userAlias : ∀ digest aliasItem, before (.userAlias digest) = some aliasItem →
    after (.userAlias digest) = some aliasItem
  profile : ∀ accountId account, before (.profile accountId) = some account →
    ∃ later, after (.profile accountId) = some later ∧ SameNames account later

theorem SameNames.refl (account : Account) : SameNames account account := ⟨rfl, rfl, rfl⟩

theorem SameNames.trans {first second third : Account} (hfirst : SameNames first second)
    (hsecond : SameNames second third) : SameNames first third :=
  ⟨hsecond.id.trans hfirst.id, hsecond.email.trans hfirst.email,
    hsecond.handle.trans hfirst.handle⟩

theorem TableGrows.refl (table : IdentityTable) : TableGrows table table :=
  ⟨fun _ tracker hfind => ⟨tracker, hfind, .inl rfl⟩, fun _ _ hfind => hfind,
    fun _ _ hfind => hfind, fun _ account hfind => ⟨account, hfind, .refl account⟩⟩

theorem TableGrows.trans {first second third : IdentityTable} (hfirst : TableGrows first second)
    (hsecond : TableGrows second third) : TableGrows first third := by
  constructor
  · intro digest tracker hfind
    obtain ⟨middle, hmiddle, horder⟩ := hfirst.tracker digest tracker hfind
    obtain ⟨later, hlater, hnext⟩ := hsecond.tracker digest middle hmiddle
    refine ⟨later, hlater, ?_⟩
    cases hnext with
    | inl hsame =>
        rw [hsame]
        exact horder
    | inr hless =>
        cases horder with
        | inl hsame =>
            rw [← hsame]
            exact .inr hless
        | inr hbefore => exact .inr (hbefore.trans hless)
  · intro digest aliasItem hfind
    exact hsecond.emailAlias _ _ (hfirst.emailAlias _ _ hfind)
  · intro digest aliasItem hfind
    exact hsecond.userAlias _ _ (hfirst.userAlias _ _ hfind)
  · intro accountId account hfind
    obtain ⟨middle, hmiddle, hnames⟩ := hfirst.profile accountId account hfind
    obtain ⟨later, hlater, hothers⟩ := hsecond.profile accountId middle hmiddle
    exact ⟨later, hlater, hnames.trans hothers⟩

theorem EmailDrift.grows {before after : IdentityTable} (hdrift : EmailDrift before after) :
    TableGrows before after := by
  constructor
  · intro digest tracker hfind
    exact ⟨tracker, (hdrift.trackers digest).trans hfind, .inl rfl⟩
  · intro digest aliasItem hfind
    exact (hdrift.emailAliases digest).trans hfind
  · intro digest aliasItem hfind
    exact (hdrift.userAliases digest).trans hfind
  · intro accountId account hfind
    have hrelated := hdrift.profiles accountId
    rw [hfind] at hrelated
    cases hafter : after (.profile accountId) with
    | none =>
        rw [hafter] at hrelated
        cases hrelated
    | some later =>
        rw [hafter] at hrelated
        cases hrelated with
        | some hnames => exact ⟨later, rfl, hnames⟩

section Items

variable {scope : EmailScope} {call : EmailCall} {known : List IdentityAnswer}
  {r : IdentityRequest} {reply : StoreRequest.Response Fault r} {before after : IdentityTable}

/-- A tracker that is there is only replaced for its version. -/
theorem version_of_holds {lookupDigest : String → String} {emailLookup : String}
    {seen : Option ChallengeTracker} {challengeIds : List ChallengeId} {current : ChallengeTracker}
    (hholds : (DynamoIdentity.trackerPut lookupDigest emailLookup seen challengeIds).Holds before)
    (hfind : before (.tracker (lookupDigest emailLookup)) = some current) :
    ∃ other, seen = some other ∧ current.version = other.version := by
  unfold Write.Holds DynamoIdentity.trackerPut Write.putIf at hholds
  dsimp only at hholds
  rw [hfind] at hholds
  cases seen with
  | none => cases hholds
  | some other => exact ⟨other, rfl, of_decide_eq_true hholds⟩

theorem grows_of_served (hrequest : EmailRequest scope call known r)
    (hserves : Serves before r reply after) : TableGrows before after := by
  constructor
  · intro digest tracker hfind
    cases hserves.item (.tracker digest) with
    | inl hsame => exact ⟨tracker, hsame.trans hfind, .inl rfl⟩
    | inr hwritten =>
        obtain ⟨write, hmem, hkey, hholds, heffect⟩ := hwritten
        cases hrequest.emailWrite hmem with
        | trackerPut emailLookup seen challengeIds =>
            cases hkey
            refine ⟨_, heffect, .inr ?_⟩
            obtain ⟨other, hseen, hversion⟩ := version_of_holds hholds hfind
            rw [hversion, hseen]
            exact Nat.lt_succ_self _
        | _ => cases hkey
  · intro digest aliasItem hfind
    cases hserves.item (.emailAlias digest) with
    | inl hsame => exact hsame.trans hfind
    | inr hwritten =>
        obtain ⟨write, hmem, hkey, hholds, heffect⟩ := hwritten
        cases hrequest.emailWrite hmem with
        | emailAliasPut digest accountId =>
            cases hkey
            have hempty := Option.isNone_iff_eq_none.mp hholds
            exact absurd (hempty.symm.trans hfind) nofun
        | _ => cases hkey
  · intro digest aliasItem hfind
    cases hserves.item (.userAlias digest) with
    | inl hsame => exact hsame.trans hfind
    | inr hwritten =>
        obtain ⟨write, hmem, hkey, hholds, heffect⟩ := hwritten
        cases hrequest.emailWrite hmem with
        | userAliasPut digest accountId =>
            cases hkey
            have hempty := Option.isNone_iff_eq_none.mp hholds
            exact absurd (hempty.symm.trans hfind) nofun
        | _ => cases hkey
  · intro accountId account hfind
    cases hserves.item (.profile accountId) with
    | inl hsame => exact ⟨account, hsame.trans hfind, .refl account⟩
    | inr hwritten =>
        obtain ⟨write, hmem, hkey, hholds, heffect⟩ := hwritten
        cases hrequest.emailWrite hmem with
        | profilePut newAccount =>
            cases hkey
            have hempty := Option.isNone_iff_eq_none.mp hholds
            exact absurd (hempty.symm.trans hfind) nofun
        | accountUpdate accountId now =>
            cases hkey
            change after _ = (before (.profile _)).map _ at heffect
            rw [hfind] at heffect
            exact ⟨_, heffect, rfl, rfl, rfl⟩
        | _ => cases hkey

/-- A challenge goes on, or is created by a call that has not written before. -/
theorem challenge_of_served (hrequest : EmailRequest scope call known r)
    (hserves : Serves before r reply after) {challengeId : ChallengeId} {later : AuthChallenge}
    (hafter : after (.challenge challengeId) = some later) :
    (∃ challenge, before (.challenge challengeId) = some challenge ∧ Continues challenge later) ∨
      (before (.challenge challengeId) = none ∧ call = .createEmailChallenge later ∧
        later.id = challengeId ∧ r.writes ≠ [] ∧ ∀ answer ∈ known, Harmless answer) := by
  cases hserves.item (.challenge challengeId) with
  | inl hsame => exact .inl ⟨later, hsame.symm.trans hafter, .refl later⟩
  | inr hwritten =>
      obtain ⟨write, hmem, hkey, hholds, heffect⟩ := hwritten
      rw [hafter] at heffect
      have hnonempty : r.writes ≠ [] := List.ne_nil_of_mem hmem
      obtain hput | hfailure | hconsume | hdelete := hrequest.challengeWrite hmem hkey
      · obtain ⟨challenge, hwrite, hcall, hid, hharmless⟩ := hput
        subst hwrite
        cases hkey
        have hsame : later = challenge := Option.some.inj heffect
        subst hsame
        exact .inr ⟨Option.isNone_iff_eq_none.mp hholds, hcall, rfl, hnonempty, hharmless⟩
      · obtain ⟨now, hwrite⟩ := hfailure
        subst hwrite
        change _ = (before (.challenge _)).map _ at heffect
        obtain ⟨challenge, hfind, hmapped⟩ := Option.map_eq_some_iff.mp heffect.symm
        rw [← hmapped]
        exact .inl ⟨challenge, hfind, rfl, rfl, Nat.le_succ _, id⟩
      · obtain ⟨now, hwrite⟩ := hconsume
        subst hwrite
        change _ = (before (.challenge _)).map _ at heffect
        obtain ⟨challenge, hfind, hmapped⟩ := Option.map_eq_some_iff.mp heffect.symm
        rw [← hmapped]
        exact .inl ⟨challenge, hfind, rfl, rfl, le_rfl, fun _ => rfl⟩
      · subst hdelete
        cases heffect

end Items

/-! ## Trackers and accounts -/

/-- An unconsumed email-login challenge of the email. -/
def UsableChallenge (table : IdentityTable) (emailLookup : String) (challengeId : ChallengeId) :
    Prop :=
  ∃ challenge, table (.challenge challengeId) = some challenge ∧
    challenge.purpose = .emailLogin ∧ challenge.emailLookup = some emailLookup ∧
    challenge.consumedAt = none

/-- Trackers list few challenges, each once, and every usable one. -/
structure TrackersExact (scope : EmailScope) (table : IdentityTable) : Prop where
  nodup : ∀ digest tracker, table (.tracker digest) = some tracker → tracker.challengeIds.Nodup
  bounded : ∀ digest tracker, table (.tracker digest) = some tracker →
    tracker.challengeIds.length ≤ scope.maxLive
  complete : ∀ emailLookup challengeId, UsableChallenge table emailLookup challengeId →
    ∃ tracker, table (.tracker (scope.lookupDigest emailLookup)) = some tracker ∧
      challengeId ∈ tracker.challengeIds

/-- An account, its email alias and its user alias exist together and name one
account. -/
structure AccountsLinked (scope : EmailScope) (table : IdentityTable) : Prop where
  emailAlias : ∀ digest aliasItem, table (.emailAlias digest) = some aliasItem →
    ∃ account, table (.profile aliasItem.accountId) = some account ∧
      scope.lookupDigest account.emailLookup = digest
  userAlias : ∀ digest aliasItem, table (.userAlias digest) = some aliasItem →
    ∃ account, table (.profile aliasItem.accountId) = some account ∧
      scope.lookupDigest account.webauthnUserHandle = digest
  profile : ∀ accountId account, table (.profile accountId) = some account →
    account.id = accountId ∧
    table (.emailAlias (scope.lookupDigest account.emailLookup)) = some ⟨accountId⟩ ∧
    table (.userAlias (scope.lookupDigest account.webauthnUserHandle)) = some ⟨accountId⟩

/-- No more challenges of an email are usable than trackers list. -/
theorem TrackersExact.usable_le {scope : EmailScope} {table : IdentityTable}
    (hexact : TrackersExact scope table) {emailLookup : String} {challengeIds : List ChallengeId}
    (hnodup : challengeIds.Nodup)
    (husable : ∀ challengeId ∈ challengeIds, UsableChallenge table emailLookup challengeId) :
    challengeIds.length ≤ scope.maxLive := by
  cases challengeIds with
  | nil => exact Nat.zero_le _
  | cons first rest =>
      obtain ⟨tracker, htracker, _⟩ := hexact.complete _ _ (husable first List.mem_cons_self)
      have hsub : (first :: rest) ⊆ tracker.challengeIds := by
        intro challengeId hmem
        obtain ⟨other, hother, hlisted⟩ := hexact.complete _ _ (husable challengeId hmem)
        rw [htracker, Option.some.injEq] at hother
        rw [hother]
        exact hlisted
      calc
        (first :: rest).length ≤ tracker.challengeIds.length :=
          (hnodup.subperm hsub).length_le
        _ ≤ scope.maxLive := hexact.bounded _ _ htracker

section Trackers

variable {scope : EmailScope} {before after : IdentityTable}

theorem nodup_trackedWith {tracker : Option ChallengeTracker} {challengeId : ChallengeId}
    (hnodup : ∀ found, tracker = some found → found.challengeIds.Nodup) :
    (DynamoIdentity.trackedWith tracker challengeId).Nodup := by
  unfold DynamoIdentity.trackedWith
  rw [List.nodup_cons]
  constructor
  · simp
  · cases tracker with
    | none => exact List.nodup_nil
    | some found => exact (hnodup found rfl).filter _

/-- The creation of a challenge of an email, from the tracker that is there. -/
theorem TrackersExact.created (hexact : TrackersExact scope before)
    (hdigest : Function.Injective scope.lookupDigest) {challenge : AuthChallenge}
    {emailLookup : String}
    (hkeys : ((DynamoIdentity.createEmailChallengeWrites scope.lookupDigest challenge emailLookup
      scope.maxLive (before (.tracker (scope.lookupDigest emailLookup)))).map Write.key).Nodup)
    (hafter : after = applyAll (DynamoIdentity.createEmailChallengeWrites scope.lookupDigest
      challenge emailLookup scope.maxLive (before (.tracker (scope.lookupDigest emailLookup))))
      before)
    (hold : ∀ other challengeId, UsableChallenge after other challengeId →
      UsableChallenge before other challengeId ∨
        (challengeId = challenge.id ∧ other = emailLookup)) : TrackersExact scope after := by
  subst hafter
  let tracked := DynamoIdentity.trackedWith (before (.tracker (scope.lookupDigest emailLookup)))
    challenge.id
  let writes := DynamoIdentity.createEmailChallengeWrites scope.lookupDigest challenge emailLookup
    scope.maxLive (before (.tracker (scope.lookupDigest emailLookup)))
  have hput : ∃ version, applyAll writes before (.tracker (scope.lookupDigest emailLookup)) =
      some ⟨version, tracked.take scope.maxLive⟩ := by
    have hmem : DynamoIdentity.trackerPut scope.lookupDigest emailLookup
        (before (.tracker (scope.lookupDigest emailLookup))) (tracked.take scope.maxLive) ∈
          writes := List.mem_cons_of_mem _ List.mem_cons_self
    exact ⟨_, applyAll_of_mem hkeys hmem before⟩
  obtain ⟨version, hput⟩ := hput
  have hothers : ∀ digest, digest ≠ scope.lookupDigest emailLookup →
      applyAll writes before (.tracker digest) = before (.tracker digest) := by
    intro digest hne
    apply applyAll_of_not_mem
    simp only [writes, DynamoIdentity.createEmailChallengeWrites, List.map_cons, List.map_map,
      List.mem_cons, List.mem_map, not_or]
    refine ⟨(by intro hsame; cases hsame), fun hsame => hne (IdentityKey.tracker.inj hsame), ?_⟩
    intro hdelete
    obtain ⟨_, _, hsame⟩ := hdelete
    cases hsame
  have hdeleted : ∀ challengeId ∈ tracked.drop scope.maxLive,
      applyAll writes before (.challenge challengeId) = none := by
    intro challengeId hdrop
    have hmem : DynamoIdentity.challengeDelete challengeId ∈ writes :=
      List.mem_cons_of_mem _ (List.mem_cons_of_mem _ (List.mem_map.mpr ⟨_, hdrop, rfl⟩))
    exact applyAll_of_mem hkeys hmem before
  constructor
  · intro digest tracker hfind
    by_cases hsame : digest = scope.lookupDigest emailLookup
    · subst hsame
      rw [hput, Option.some.injEq] at hfind
      rw [← hfind]
      exact (nodup_trackedWith fun found hfound => hexact.nodup _ _ hfound).take
    · rw [hothers digest hsame] at hfind
      exact hexact.nodup _ _ hfind
  · intro digest tracker hfind
    by_cases hsame : digest = scope.lookupDigest emailLookup
    · subst hsame
      rw [hput, Option.some.injEq] at hfind
      rw [← hfind]
      exact List.length_take_le _ _
    · rw [hothers digest hsame] at hfind
      exact hexact.bounded _ _ hfind
  · intro other challengeId husable
    have hlisted : other = emailLookup → challengeId ∈ tracked → challengeId ∈
        tracked.take scope.maxLive := by
      intro hsame htracked
      rw [← List.take_append_drop scope.maxLive tracked, List.mem_append] at htracked
      cases htracked with
      | inl htake => exact htake
      | inr hdrop =>
          obtain ⟨_, hfind, _⟩ := husable
          rw [hdeleted challengeId hdrop] at hfind
          cases hfind
    cases hold other challengeId husable with
    | inr hnew =>
        obtain ⟨hid, hother⟩ := hnew
        subst hother
        refine ⟨_, hput, hlisted rfl ?_⟩
        rw [hid]
        exact List.mem_cons_self
    | inl hbefore =>
        obtain ⟨tracker, htracker, hmem⟩ := hexact.complete other challengeId hbefore
        by_cases hsame : other = emailLookup
        · subst hsame
          refine ⟨_, hput, hlisted rfl ?_⟩
          change challengeId ∈ DynamoIdentity.trackedWith _ _
          unfold DynamoIdentity.trackedWith
          rw [htracker, List.mem_cons, List.mem_filter]
          by_cases hid : challengeId = challenge.id
          · exact .inl hid
          · exact .inr ⟨hmem, by simpa using hid⟩
        · rw [hothers _ (hdigest.ne hsame)]
          exact ⟨tracker, htracker, hmem⟩

/-- A committed completion leaves no challenge of the email usable. -/
theorem unusable_of_completed (hexact : TrackersExact scope before)
    {challengeId : ChallengeId} {now : Time} {newAccount : Account} {newSession : AuthSession}
    {view : DynamoIdentity.CompletionView}
    (hview : view.tracker = before (.tracker (scope.lookupDigest view.emailLookup)))
    (hkeys : ((DynamoIdentity.completeEmailChallengeWrites scope.lookupDigest challengeId now
      scope.maxAttempts newAccount newSession view).map Write.key).Nodup)
    (hafter : after = applyAll (DynamoIdentity.completeEmailChallengeWrites scope.lookupDigest
      challengeId now scope.maxAttempts newAccount newSession view) before)
    (hold : ∀ other challengeId, UsableChallenge after other challengeId →
      UsableChallenge before other challengeId) (other : ChallengeId) :
    ¬ UsableChallenge after view.emailLookup other := by
  intro husable
  obtain ⟨tracker, htracker, hlisted⟩ := hexact.complete _ _ (hold _ _ husable)
  obtain ⟨challenge, hfind, _, _, hunconsumed⟩ := husable
  subst hafter
  by_cases hsame : other = challengeId
  · subst hsame
    have hmem : DynamoIdentity.consumeEmailChallenge other now scope.maxAttempts ∈
        DynamoIdentity.completeEmailChallengeWrites scope.lookupDigest other now scope.maxAttempts
          newAccount newSession view := List.mem_cons_self
    have hconsumed := applyAll_of_mem hkeys hmem before
    change applyAll _ before (.challenge other) = (before (.challenge other)).map _ at hconsumed
    rw [hfind] at hconsumed
    obtain ⟨earlier, _, hmapped⟩ := Option.map_eq_some_iff.mp hconsumed.symm
    rw [← hmapped] at hunconsumed
    cases hunconsumed
  · have hmem : DynamoIdentity.challengeDelete other ∈
        DynamoIdentity.completeEmailChallengeWrites scope.lookupDigest challengeId now
          scope.maxAttempts newAccount newSession view := by
      unfold DynamoIdentity.completeEmailChallengeWrites
      rw [hview, htracker]
      apply List.mem_cons_of_mem
      apply List.mem_append_left
      apply List.mem_map_of_mem
      rw [List.mem_filter]
      exact ⟨hlisted, by simpa using hsame⟩
    have hdeleted := applyAll_of_mem hkeys hmem before
    change applyAll _ before (.challenge other) = none at hdeleted
    rw [hdeleted] at hfind
    cases hfind

/-- A committed completion empties the tracker of its email only. -/
theorem TrackersExact.completed (hexact : TrackersExact scope before)
    (hdigest : Function.Injective scope.lookupDigest)
    {challengeId : ChallengeId} {now : Time} {newAccount : Account} {newSession : AuthSession}
    {view : DynamoIdentity.CompletionView}
    (hview : view.tracker = before (.tracker (scope.lookupDigest view.emailLookup)))
    (hkeys : ((DynamoIdentity.completeEmailChallengeWrites scope.lookupDigest challengeId now
      scope.maxAttempts newAccount newSession view).map Write.key).Nodup)
    (hafter : after = applyAll (DynamoIdentity.completeEmailChallengeWrites scope.lookupDigest
      challengeId now scope.maxAttempts newAccount newSession view) before)
    (hold : ∀ other challengeId, UsableChallenge after other challengeId →
      UsableChallenge before other challengeId) : TrackersExact scope after := by
  have hunusable := unusable_of_completed hexact hview hkeys hafter hold
  subst hafter
  let writes := DynamoIdentity.completeEmailChallengeWrites scope.lookupDigest challengeId now
    scope.maxAttempts newAccount newSession view
  have hput : ∃ version, applyAll writes before (.tracker (scope.lookupDigest view.emailLookup)) =
      some ⟨version, []⟩ := by
    exact ⟨_, applyAll_of_mem hkeys (trackerPut_mem _ _ _ _ _ _ view) before⟩
  obtain ⟨version, hput⟩ := hput
  have hothers : ∀ digest, digest ≠ scope.lookupDigest view.emailLookup →
      applyAll writes before (.tracker digest) = before (.tracker digest) := by
    intro digest hne
    apply applyAll_of_not_mem
    intro hmem
    obtain ⟨write, hwrite, hkey⟩ := List.mem_map.mp hmem
    change write ∈ _ :: (List.map _ _ ++ _ :: (_ ++ [_])) at hwrite
    simp only [List.mem_cons, List.mem_append, List.mem_map, List.not_mem_nil, or_false] at hwrite
    obtain hconsume | hdelete | htracker | haccount | hsession := hwrite
    · subst hconsume
      cases hkey
    · obtain ⟨_, _, hsame⟩ := hdelete
      subst hsame
      cases hkey
    · subst htracker
      exact hne (IdentityKey.tracker.inj hkey).symm
    · cases hexisting : view.existingAccount with
      | none =>
          rw [hexisting] at haccount
          simp only [DynamoIdentity.accountPuts, List.mem_cons, List.not_mem_nil,
            or_false] at haccount
          obtain hwrite | hwrite | hwrite := haccount
          all_goals
            subst hwrite
            cases hkey
      | some account =>
          rw [hexisting] at haccount
          have hupdate := List.mem_singleton.mp haccount
          subst hupdate
          cases hkey
    · subst hsession
      cases hkey
  constructor
  · intro digest tracker hfind
    by_cases hsame : digest = scope.lookupDigest view.emailLookup
    · subst hsame
      rw [hput, Option.some.injEq] at hfind
      rw [← hfind]
      exact List.nodup_nil
    · rw [hothers digest hsame] at hfind
      exact hexact.nodup _ _ hfind
  · intro digest tracker hfind
    by_cases hsame : digest = scope.lookupDigest view.emailLookup
    · subst hsame
      rw [hput, Option.some.injEq] at hfind
      rw [← hfind]
      exact Nat.zero_le _
    · rw [hothers digest hsame] at hfind
      exact hexact.bounded _ _ hfind
  · intro other challengeId husable
    have hne : other ≠ view.emailLookup := by
      intro hsame
      rw [hsame] at husable
      exact hunusable challengeId husable
    rw [hothers _ (hdigest.ne hne)]
    exact hexact.complete other challengeId (hold other challengeId husable)

end Trackers

section Accounts

variable {scope : EmailScope} {before after : IdentityTable}

/-- The keys of an account. -/
def accountKeys (scope : EmailScope) (account : Account) : List IdentityKey :=
  [.profile account.id, .emailAlias (scope.lookupDigest account.emailLookup),
    .userAlias (scope.lookupDigest account.webauthnUserHandle)]

/-- The items of an account that was put. -/
structure AccountPut (scope : EmailScope) (table : IdentityTable) (account : Account) : Prop where
  profile : table (.profile account.id) = some account
  emailAlias : table (.emailAlias (scope.lookupDigest account.emailLookup)) = some ⟨account.id⟩
  userAlias : table (.userAlias (scope.lookupDigest account.webauthnUserHandle)) =
    some ⟨account.id⟩

/-- Items that are about accounts. -/
def IdentityKey.OfAccount : IdentityKey → Prop
  | .profile _ => True
  | .emailAlias _ => True
  | .userAlias _ => True
  | _ => False

/-- Accounts stay linked when what is there keeps its names and new items come
as one account. -/
theorem AccountsLinked.step (hlinked : AccountsLinked scope before)
    (hgrows : TableGrows before after)
    (hnew : ∀ key : IdentityKey, key.OfAccount → before key = none → after key ≠ none →
      ∃ account, key ∈ accountKeys scope account ∧ AccountPut scope after account) :
    AccountsLinked scope after := by
  constructor
  · intro digest aliasItem hfind
    cases hbefore : before (.emailAlias digest) with
    | some earlier =>
        have hkept := hgrows.emailAlias digest earlier hbefore
        rw [hfind, Option.some.injEq] at hkept
        subst hkept
        obtain ⟨account, hprofile, hnamed⟩ := hlinked.emailAlias digest aliasItem hbefore
        obtain ⟨later, hlater, hnames⟩ := hgrows.profile _ account hprofile
        refine ⟨later, hlater, ?_⟩
        rw [hnames.email]
        exact hnamed
    | none =>
        obtain ⟨account, hkey, hput⟩ := hnew (.emailAlias digest) trivial hbefore (by simp [hfind])
        simp only [accountKeys, List.mem_cons, reduceCtorEq, IdentityKey.emailAlias.injEq,
          List.not_mem_nil, or_false, false_or] at hkey
        subst hkey
        have hsame := hput.emailAlias
        rw [hfind, Option.some.injEq] at hsame
        subst hsame
        exact ⟨account, hput.profile, rfl⟩
  · intro digest aliasItem hfind
    cases hbefore : before (.userAlias digest) with
    | some earlier =>
        have hkept := hgrows.userAlias digest earlier hbefore
        rw [hfind, Option.some.injEq] at hkept
        subst hkept
        obtain ⟨account, hprofile, hnamed⟩ := hlinked.userAlias digest aliasItem hbefore
        obtain ⟨later, hlater, hnames⟩ := hgrows.profile _ account hprofile
        refine ⟨later, hlater, ?_⟩
        rw [hnames.handle]
        exact hnamed
    | none =>
        obtain ⟨account, hkey, hput⟩ := hnew (.userAlias digest) trivial hbefore (by simp [hfind])
        simp only [accountKeys, List.mem_cons, reduceCtorEq, IdentityKey.userAlias.injEq,
          List.not_mem_nil, or_false, false_or] at hkey
        subst hkey
        have hsame := hput.userAlias
        rw [hfind, Option.some.injEq] at hsame
        subst hsame
        exact ⟨account, hput.profile, rfl⟩
  · intro accountId account hfind
    cases hbefore : before (.profile accountId) with
    | some earlier =>
        obtain ⟨later, hlater, hnames⟩ := hgrows.profile accountId earlier hbefore
        rw [hfind, Option.some.injEq] at hlater
        subst hlater
        obtain ⟨hid, hemail, huser⟩ := hlinked.profile accountId earlier hbefore
        rw [hnames.id, hnames.email, hnames.handle]
        exact ⟨hid, hgrows.emailAlias _ _ hemail, hgrows.userAlias _ _ huser⟩
    | none =>
        obtain ⟨other, hkey, hput⟩ := hnew (.profile accountId) trivial hbefore (by simp [hfind])
        simp only [accountKeys, List.mem_cons, reduceCtorEq, IdentityKey.profile.injEq,
          List.not_mem_nil, or_false] at hkey
        subst hkey
        have hsame := hput.profile
        rw [hfind, Option.some.injEq] at hsame
        rw [hsame]
        exact ⟨rfl, hput.emailAlias, hput.userAlias⟩

theorem eq_none_of_rel {α : Type} {R : α → α → Prop} {first second : Option α}
    (hrelated : Option.Rel R first second) (hfirst : first = none) : second = none := by
  subst hfirst
  cases hrelated
  rfl

/-- What other calls do leaves accounts linked. -/
theorem AccountsLinked.drift (hlinked : AccountsLinked scope before)
    (hdrift : EmailDrift before after) : AccountsLinked scope after := by
  apply hlinked.step hdrift.grows
  intro key hkind hbefore hafter
  have hstill : before key = none → after key = none := by
    cases key with
    | profile accountId => exact eq_none_of_rel (hdrift.profiles accountId)
    | emailAlias digest => exact (hdrift.emailAliases digest).trans
    | userAlias digest => exact (hdrift.userAliases digest).trans
    | session accountId sessionId => exact hkind.elim
    | passkey accountId passkeyId => exact hkind.elim
    | apiKey accountId keyId => exact hkind.elim
    | tracker digest => exact hkind.elim
    | challenge challengeId => exact hkind.elim
    | credential digest => exact hkind.elim
  exact absurd (hstill hbefore) hafter

end Accounts

/-! ## The effect of a request -/

theorem completable_eq_some {now : Time} {maxAttempts : ℕ} {newAccount : Account}
    {challenge : AuthChallenge} {emailLookup : String}
    (hcompletable : DynamoIdentity.completable now maxAttempts newAccount challenge =
      some emailLookup) :
    challenge.emailLookup = some emailLookup ∧ newAccount.emailLookup = emailLookup := by
  unfold DynamoIdentity.completable at hcompletable
  cases hemail : challenge.emailLookup with
  | none =>
      rw [hemail] at hcompletable
      cases hcompletable
  | some other =>
      rw [hemail] at hcompletable
      dsimp only at hcompletable
      split_ifs at hcompletable with hrefused
      cases hcompletable
      simp only [not_or, not_not] at hrefused
      exact ⟨rfl, hrefused.2.2.2.2⟩

section Effects

variable {scope : EmailScope} {call : EmailCall} {known : List IdentityAnswer}
  {r : IdentityRequest} {reply : StoreRequest.Response Fault r} {before after : IdentityTable}

theorem usable_of_served (hrequest : EmailRequest scope call known r)
    (hserves : Serves before r reply after) {emailLookup : String} {challengeId : ChallengeId}
    (husable : UsableChallenge after emailLookup challengeId) :
    UsableChallenge before emailLookup challengeId ∨
      ∃ challenge, call = .createEmailChallenge challenge ∧ challenge.id = challengeId ∧
        challenge.emailLookup = some emailLookup := by
  obtain ⟨later, hfind, hpurpose, hemail, hunconsumed⟩ := husable
  cases challenge_of_served hrequest hserves hfind with
  | inl hbefore =>
      obtain ⟨challenge, hearlier, hcontinues⟩ := hbefore
      refine .inl ⟨challenge, hearlier, hcontinues.purpose.symm.trans hpurpose,
        hcontinues.email.symm.trans hemail, ?_⟩
      by_contra hconsumed
      have hlater := hcontinues.consumed (Option.isSome_iff_ne_none.mpr hconsumed)
      rw [hunconsumed] at hlater
      cases hlater
  | inr hcreated => exact .inr ⟨later, hcreated.2.1, hcreated.2.2.1, hemail⟩

/-- The tracker that a request was made from is the tracker that is there. -/
def ReadsCurrent (scope : EmailScope) (known : List IdentityAnswer) (table : IdentityTable) :
    Prop :=
  ∀ emailLookup (seen : Option ChallengeTracker) challengeIds,
    (⟨.get (.tracker (scope.lookupDigest emailLookup)), .ok seen⟩ : IdentityAnswer) ∈ known →
    (DynamoIdentity.trackerPut scope.lookupDigest emailLookup seen challengeIds).Holds table →
      seen = table (.tracker (scope.lookupDigest emailLookup))

theorem TrackersExact.served (hexact : TrackersExact scope before)
    (hdigest : Function.Injective scope.lookupDigest)
    (hrequest : EmailRequest scope call known r) (hcurrent : ReadsCurrent scope known before)
    (hserves : Serves before r reply after) : TrackersExact scope after := by
  have husable := fun emailLookup challengeId =>
    @usable_of_served scope call known r reply before after hrequest hserves emailLookup challengeId
  cases hserves.effect with
  | inl hsame =>
      rw [hsame]
      exact hexact
  | inr hwritten =>
      obtain ⟨hkeys, hholds, hafter⟩ := hwritten
      cases hrequest with
      | read r hread =>
          rw [hread] at hafter
          rw [hafter]
          exact hexact
      | created challenge emailLookup tracker hcall hpurpose hlive hemail htracker hharmless =>
          have hput : DynamoIdentity.trackerPut scope.lookupDigest emailLookup tracker
              ((DynamoIdentity.trackedWith tracker challenge.id).take scope.maxLive) ∈
                DynamoIdentity.createEmailChallengeWrites scope.lookupDigest challenge emailLookup
                  scope.maxLive tracker := List.mem_cons_of_mem _ List.mem_cons_self
          have hsame := hcurrent emailLookup tracker _ htracker (hholds _ hput)
          subst hsame
          apply hexact.created hdigest hkeys hafter
          intro other challengeId hlater
          cases husable other challengeId hlater with
          | inl hbefore => exact .inl hbefore
          | inr hcreated =>
              obtain ⟨created, hsame, hid, hlookup⟩ := hcreated
              rw [hcall, EmailCall.createEmailChallenge.injEq] at hsame
              subst hsame
              rw [hemail, Option.some.injEq] at hlookup
              exact .inr ⟨hid.symm, hlookup.symm⟩
      | failed challengeId now hcall =>
          have htrackers : ∀ digest, after (.tracker digest) = before (.tracker digest) := by
            intro digest
            rw [hafter]
            apply applyAll_of_not_mem
            intro hmem
            cases List.mem_singleton.mp hmem
          constructor
          · intro digest tracker hfind
            rw [htrackers] at hfind
            exact hexact.nodup digest tracker hfind
          · intro digest tracker hfind
            rw [htrackers] at hfind
            exact hexact.bounded digest tracker hfind
          · intro emailLookup other hlater
            rw [htrackers]
            apply hexact.complete
            cases husable emailLookup other hlater with
            | inl hbefore => exact hbefore
            | inr hcreated =>
                obtain ⟨_, hsame, _⟩ := hcreated
                rw [hcall] at hsame
                cases hsame
      | completed challengeId now newAccount newSession view challenge hcall hchallenge hcompletable
          htracker haccount =>
          have hview := hcurrent view.emailLookup view.tracker [] htracker
            (hholds _ (trackerPut_mem _ _ _ _ _ _ view))
          apply hexact.completed hdigest hview hkeys hafter
          intro other otherId hlater
          cases husable other otherId hlater with
          | inl hbefore => exact hbefore
          | inr hcreated =>
              obtain ⟨_, hsame, _⟩ := hcreated
              rw [hcall] at hsame
              cases hsame

/-- New items of accounts come as one account. -/
theorem account_of_served (hrequest : EmailRequest scope call known r)
    (hserves : Serves before r reply after) {key : IdentityKey} (hkind : key.OfAccount)
    (hbefore : before key = none) (hafter : after key ≠ none) :
    ∃ account, key ∈ accountKeys scope account ∧ AccountPut scope after account := by
  cases hserves.effect with
  | inl hsame =>
      rw [hsame] at hafter
      exact absurd hbefore hafter
  | inr hwritten =>
      obtain ⟨hkeys, hholds, happlied⟩ := hwritten
      have hmem : key ∈ r.writes.map Write.key := by
        apply exists_of_applyAll_ne
        rw [← happlied, hbefore]
        exact hafter
      obtain ⟨write, hwrite, hkey⟩ := List.mem_map.mp hmem
      subst hkey
      cases hrequest with
      | read r hread =>
          rw [hread] at hwrite
          cases hwrite
      | created challenge emailLookup tracker =>
          change write ∈ _ :: _ :: List.map _ _ at hwrite
          rw [List.mem_cons, List.mem_cons, List.mem_map] at hwrite
          obtain hput | htracker | hdelete := hwrite
          · subst hput
            exact hkind.elim
          · subst htracker
            exact hkind.elim
          · obtain ⟨_, _, hsame⟩ := hdelete
            subst hsame
            exact hkind.elim
      | failed challengeId now hcall =>
          have hsame := List.mem_singleton.mp hwrite
          subst hsame
          exact hkind.elim
      | completed challengeId now newAccount newSession view challenge hcall hchallenge hcompletable
          htracker haccount =>
          have hmembers := hwrite
          change write ∈ _ :: (List.map _ _ ++ _ :: (_ ++ [_])) at hwrite
          simp only [List.mem_cons, List.mem_append, List.mem_map, List.not_mem_nil,
            or_false] at hwrite
          obtain hconsume | hdelete | htracked | hitems | hsession := hwrite
          · subst hconsume
            exact hkind.elim
          · obtain ⟨_, _, hsame⟩ := hdelete
            subst hsame
            exact hkind.elim
          · subst htracked
            exact hkind.elim
          · cases hexisting : view.existingAccount with
            | some account =>
                rw [hexisting] at hitems
                have hsame := List.mem_singleton.mp hitems
                subst hsame
                have heffect := applyAll_of_mem hkeys hmembers before
                rw [← happlied] at heffect
                change after _ = (before _).map _ at heffect
                rw [show before (.profile _) = none from hbefore] at heffect
                exact absurd heffect hafter
            | none =>
                rw [hexisting] at hitems
                have hlookup := (completable_eq_some hcompletable).2
                refine ⟨newAccount, ?_, ?_⟩
                · simp only [DynamoIdentity.accountPuts, List.mem_cons, List.not_mem_nil,
                    or_false] at hitems
                  unfold accountKeys
                  rw [hlookup]
                  obtain hput | hput | hput := hitems
                  all_goals
                    subst hput
                    simp [Write.putNew, Write.putIf]
                · have hall : ∀ item ∈ DynamoIdentity.accountPuts scope.lookupDigest newAccount
                      view.emailLookup, item ∈ DynamoIdentity.completeEmailChallengeWrites
                        scope.lookupDigest challengeId now scope.maxAttempts newAccount newSession
                          view := by
                    intro item hitem
                    apply List.mem_cons_of_mem
                    apply List.mem_append_right
                    apply List.mem_cons_of_mem
                    rw [hexisting]
                    exact List.mem_append_left _ hitem
                  rw [happlied]
                  constructor
                  · exact applyAll_of_mem hkeys (hall _ List.mem_cons_self) before
                  · rw [hlookup]
                    exact applyAll_of_mem hkeys
                      (hall _ (List.mem_cons_of_mem _ List.mem_cons_self)) before
                  · exact applyAll_of_mem hkeys (hall _ (List.mem_cons_of_mem _
                      (List.mem_cons_of_mem _ List.mem_cons_self))) before
          · subst hsession
            exact hkind.elim

end Effects

/-! ## Runs -/

abbrev EmailState := Configuration EmailCall IdentityRequest (StoreRequest.Response Fault) Fault
  EmailCall.Result IdentityTable

/-- There was a challenge under the identifier, at first or put by a call. -/
def Existed (table : IdentityTable) (labels : List EmailLabel) (challengeId : ChallengeId) : Prop :=
  table (.challenge challengeId) ≠ none ∨
    ∃ pid challenge r reply, .start pid (.createEmailChallenge challenge) ∈ labels ∧
      challenge.id = challengeId ∧ .ask pid r reply ∈ labels ∧ ¬ Harmless ⟨r, reply⟩

theorem Existed.mono {table : IdentityTable} {labels more : List EmailLabel}
    {challengeId : ChallengeId} (hexisted : Existed table labels challengeId)
    (hsub : ∀ label ∈ labels, label ∈ more) : Existed table more challengeId := by
  cases hexisted with
  | inl hinitial => exact .inl hinitial
  | inr hput =>
      obtain ⟨pid, challenge, r, reply, hstart, hid, hask, hharmless⟩ := hput
      exact .inr ⟨pid, challenge, r, reply, hsub _ hstart, hid, hsub _ hask, hharmless⟩

/-- A later item of the challenge is a later state of it. -/
def CompletionFollows (before after : Option AuthChallenge) : Prop :=
  ∀ later, after = some later → ∃ challenge, before = some challenge ∧ Continues challenge later

section Runs

variable {scope : EmailScope} {table : IdentityTable} {before middle after final : EmailState}
  {labels past rest : List EmailLabel} {label : EmailLabel} {pid : ℕ} {challengeId : ChallengeId}

theorem emailRequest_of_process
    (hrun : Run (emailSystem scope).Step (.idle table) labels before) {call : EmailCall}
    {r : IdentityRequest} {next : StoreRequest.Response Fault r → TableProgram call.Result}
    (hprocess : before.process pid = some ⟨call, .request r next⟩) :
    EmailRequest scope call (answersOf pid labels) r := by
  cases System.replays_of_run hrun hprocess with
  | inl hfault =>
      obtain ⟨cause, hfault⟩ := hfault
      cases hfault
  | inr hreplays => exact hreplays.issuesKnowing (issues_emailCall call)

/-- What a process has read was in the table then. -/
theorem table_of_read (hrun : Run (emailSystem scope).Step (.idle table) labels final)
    {key : IdentityKey} {found : Option key.Item}
    (hread : (⟨.get key, .ok found⟩ : IdentityAnswer) ∈ answersOf pid labels) :
    ∃ past rest middle, labels = past ++ rest ∧
      Run (emailSystem scope).Step (.idle table) past middle ∧ middle.store key = found ∧
      Run (emailSystem scope).Step middle rest final := by
  obtain ⟨first, second, asked, call, next, store, hlabels, hfirst, hprocess, hanswers, hsecond⟩ :=
    System.exists_of_ask hrun (mem_answersOf.mp hread)
  have hserves : Serves asked.store (.get key) (.ok found) store := hanswers
  have hrest : Run (emailSystem scope).Step asked (.ask pid (.get key) (.ok found) :: second)
      final :=
    run_cons.mpr ⟨_, .ask pid call _ next _ store hprocess hanswers, hsecond⟩
  refine ⟨first, _, asked, hlabels, hfirst, ?_, hrest⟩
  cases hserves with
  | got key => rfl

theorem grows_of_step (hpast : Run (emailSystem scope).Step (.idle table) past before)
    (hstep : (emailSystem scope).Step before label after) :
    TableGrows before.store after.store := by
  cases hstep with
  | start pid call hfree hadmits => exact .refl _
  | halt pid call r next cause store hprocess hhalts =>
      have hsame : store = before.store := hhalts
      rw [hsame]
      exact .refl _
  | environment store hmoves => exact hmoves.grows
  | ask pid call r next reply store hprocess hanswers =>
      exact grows_of_served (emailRequest_of_process hpast hprocess) hanswers

theorem tableGrows_of_run (hpast : Run (emailSystem scope).Step (.idle table) past middle)
    (hrest : Run (emailSystem scope).Step middle rest final) :
    TableGrows middle.store final.store := by
  apply Run.relates_after hpast (fun first second : EmailState =>
    TableGrows first.store second.store) _ _ _ hrest
  · intro state
    exact .refl _
  · intro first second third hfirst hsecond
    exact hfirst.trans hsecond
  · intro earlier later done performed _ _ hdone hstep
    exact grows_of_step hdone hstep

/-- An update that passes its version check was made from the tracker that is
there. -/
theorem readsCurrent_of_run (hrun : Run (emailSystem scope).Step (.idle table) labels before)
    (pid : ℕ) : ReadsCurrent scope (answersOf pid labels) before.store := by
  intro emailLookup seen challengeIds hread hholds
  obtain ⟨past, rest, middle, _, hpast, hseen, hrest⟩ := table_of_read hrun hread
  cases hfind : before.store (.tracker (scope.lookupDigest emailLookup)) with
  | none =>
      cases seen with
      | none => rfl
      | some other =>
          obtain ⟨later, hlater, _⟩ := (tableGrows_of_run hpast hrest).tracker _ other hseen
          rw [hfind] at hlater
          cases hlater
  | some current =>
      obtain ⟨other, hsame, hversion⟩ := version_of_holds hholds hfind
      subst hsame
      obtain ⟨later, hlater, horder⟩ := (tableGrows_of_run hpast hrest).tracker _ other hseen
      rw [hfind, Option.some.injEq] at hlater
      subst hlater
      cases horder with
      | inl hequal => rw [hequal]
      | inr hless =>
          rw [hversion] at hless
          exact absurd hless (lt_irrefl _)

theorem trackersExact_of_run (hdigest : Function.Injective scope.lookupDigest)
    (hexact : TrackersExact scope table)
    (hrun : Run (emailSystem scope).Step (.idle table) labels final) :
    TrackersExact scope final.store := by
  have hall := Run.invariant (I := fun past (state : EmailState) =>
    Run (emailSystem scope).Step (.idle table) past state ∧ TrackersExact scope state.store)
    ?_ ?_ hrun
  · exact hall.2
  · exact ⟨run_nil.mpr rfl, hexact⟩
  · intro past before label after hpast hstep
    refine ⟨run_snoc.mpr ⟨before, hpast.1, hstep⟩, ?_⟩
    cases hstep with
    | start pid call hfree hadmits => exact hpast.2
    | halt pid call r next cause store hprocess hhalts =>
        have hsame : store = before.store := hhalts
        rw [hsame]
        exact hpast.2
    | environment store hmoves =>
        have hdrift : EmailDrift before.store store := hmoves
        constructor
        · intro digest tracker hfind
          exact hpast.2.nodup digest tracker ((hdrift.trackers digest).symm.trans hfind)
        · intro digest tracker hfind
          exact hpast.2.bounded digest tracker ((hdrift.trackers digest).symm.trans hfind)
        · intro emailLookup challengeId husable
          obtain ⟨challenge, hfind, hkind⟩ := husable
          obtain ⟨tracker, htracker, hmem⟩ := hpast.2.complete emailLookup challengeId
            ⟨challenge, (hdrift.challenges challengeId).symm.trans hfind, hkind⟩
          exact ⟨tracker, (hdrift.trackers _).trans htracker, hmem⟩
    | ask pid call r next reply store hprocess hanswers =>
        exact hpast.2.served hdigest (emailRequest_of_process hpast.1 hprocess)
          (readsCurrent_of_run hpast.1 pid) hanswers

theorem accountsLinked_of_run (hlinked : AccountsLinked scope table)
    (hrun : Run (emailSystem scope).Step (.idle table) labels final) :
    AccountsLinked scope final.store := by
  have hall := Run.invariant (I := fun past (state : EmailState) =>
    Run (emailSystem scope).Step (.idle table) past state ∧ AccountsLinked scope state.store)
    ?_ ?_ hrun
  · exact hall.2
  · exact ⟨run_nil.mpr rfl, hlinked⟩
  · intro past before label after hpast hstep
    refine ⟨run_snoc.mpr ⟨before, hpast.1, hstep⟩, ?_⟩
    cases hstep with
    | start pid call hfree hadmits => exact hpast.2
    | halt pid call r next cause store hprocess hhalts =>
        have hsame : store = before.store := hhalts
        rw [hsame]
        exact hpast.2
    | environment store hmoves => exact hpast.2.drift hmoves
    | ask pid call r next reply store hprocess hanswers =>
        have hrequest := emailRequest_of_process hpast.1 hprocess
        apply hpast.2.step (grows_of_served hrequest hanswers)
        intro key hkind hbefore hafter
        exact account_of_served hrequest hanswers hkind hbefore hafter

/-! ### Challenges -/

/-- The step puts a challenge, for the first time of its process. -/
structure Appears (past : List EmailLabel) (label : EmailLabel) (challenge : AuthChallenge) :
    Prop where
  asked : ∃ pid r reply, label = .ask pid r reply ∧
    .start pid (.createEmailChallenge challenge) ∈ past ∧ ¬ Harmless ⟨r, reply⟩ ∧
    ∀ answer ∈ answersOf pid past, Harmless answer

theorem challenge_of_step (hpast : Run (emailSystem scope).Step (.idle table) past before)
    (hstep : (emailSystem scope).Step before label after) {later : AuthChallenge}
    (hafter : after.store (.challenge challengeId) = some later) :
    (∃ challenge, before.store (.challenge challengeId) = some challenge ∧
      Continues challenge later) ∨
    before.store (.challenge challengeId) = none ∧ later.id = challengeId ∧
      Appears past label later := by
  cases hstep with
  | start pid call hfree hadmits => exact .inl ⟨later, hafter, .refl later⟩
  | halt pid call r next cause store hprocess hhalts =>
      have hsame : store = before.store := hhalts
      rw [hsame] at hafter
      exact .inl ⟨later, hafter, .refl later⟩
  | environment store hmoves =>
      have hdrift : EmailDrift before.store store := hmoves
      exact .inl ⟨later, (hdrift.challenges challengeId).symm.trans hafter, .refl later⟩
  | ask pid call r next reply store hprocess hanswers =>
      cases challenge_of_served (emailRequest_of_process hpast hprocess) hanswers hafter with
      | inl hbefore => exact .inl hbefore
      | inr hcreated =>
          obtain ⟨hbefore, hcall, hid, _, hharmless⟩ := hcreated
          refine .inr ⟨hbefore, hid, pid, r, reply, rfl, ?_, ?_, hharmless⟩
          · rw [← hcall]
            exact System.start_mem_of_process hpast hprocess
          · intro hnothing
            have hsame := unchanged_of_harmless hanswers hnothing
            dsimp only at hafter
            rw [hsame, hbefore] at hafter
            cases hafter

theorem Appears.existed {challenge : AuthChallenge} (happears : Appears past label challenge)
    (table : IdentityTable) : Existed table (past ++ [label]) challenge.id := by
  obtain ⟨pid, r, reply, hlabel, hstart, hharmless, _⟩ := happears.asked
  rw [hlabel]
  exact .inr ⟨pid, challenge, r, reply, List.mem_append_left _ hstart, rfl, by simp, hharmless⟩

/-- What appears was never there before. -/
theorem Appears.not_existed {challenge : AuthChallenge} (happears : Appears past label challenge)
    (hfresh : FreshChallenges table past) : ¬ Existed table past challenge.id := by
  obtain ⟨pid, r, reply, _, hstart, _, hquiet⟩ := happears.asked
  intro hexisted
  cases hexisted with
  | inl hinitial => exact hinitial (hfresh pid challenge hstart).1
  | inr hput =>
      obtain ⟨other, another, asked, answer, hother, hid, hask, hharmless⟩ := hput
      have hsame := (hfresh pid challenge hstart).2 other another hother hid
      subst hsame
      exact hharmless (hquiet _ (mem_answersOf.mpr hask))

theorem existed_of_run (hrun : Run (emailSystem scope).Step (.idle table) labels final)
    (hfind : final.store (.challenge challengeId) ≠ none) : Existed table labels challengeId := by
  have hall := Run.invariant (I := fun past (state : EmailState) =>
    Run (emailSystem scope).Step (.idle table) past state ∧
      (state.store (.challenge challengeId) ≠ none → Existed table past challengeId)) ?_ ?_ hrun
  · exact hall.2 hfind
  · exact ⟨run_nil.mpr rfl, .inl⟩
  · intro past before label after hpast hstep
    refine ⟨run_snoc.mpr ⟨before, hpast.1, hstep⟩, ?_⟩
    intro hafter
    obtain ⟨later, hlater⟩ := Option.ne_none_iff_exists'.mp hafter
    cases challenge_of_step hpast.1 hstep hlater with
    | inl hbefore =>
        obtain ⟨challenge, hearlier, _⟩ := hbefore
        exact (hpast.2 (by simp [hearlier])).mono fun _ hmem => List.mem_append_left _ hmem
    | inr hnew =>
        obtain ⟨_, hid, happears⟩ := hnew
        rw [← hid]
        exact happears.existed table

/-- A challenge that has existed goes on or is gone. -/
theorem follows_of_run (hpast : Run (emailSystem scope).Step (.idle table) past middle)
    (hrest : Run (emailSystem scope).Step middle rest final)
    (hfresh : FreshChallenges table (past ++ rest)) (hexisted : Existed table past challengeId) :
    CompletionFollows (middle.store (.challenge challengeId)) (final.store (.challenge challengeId)) := by
  apply Run.relates_after hpast (fun first second : EmailState =>
    CompletionFollows (first.store (.challenge challengeId)) (second.store (.challenge challengeId)))
    _ _ _ hrest
  · intro state later hlater
    exact ⟨later, hlater, .refl later⟩
  · intro first second third hfirst hsecond later hlater
    obtain ⟨challenge, hmiddle, hcontinues⟩ := hsecond later hlater
    obtain ⟨earlier, hearlier, hbefore⟩ := hfirst challenge hmiddle
    exact ⟨earlier, hearlier, hbefore.trans hcontinues⟩
  · intro earlier later done performed hpastDone hprefix hdone hstep challenge hfind
    cases challenge_of_step hdone hstep hfind with
    | inl hbefore => exact hbefore
    | inr hnew =>
        obtain ⟨_, hid, happears⟩ := hnew
        have hdoneFresh : FreshChallenges table done := by
          apply hfresh.mono
          intro label hmem
          exact hprefix.subset (List.mem_append_left _ hmem)
        have hbefore : Existed table done challengeId :=
          hexisted.mono fun label hmem => hpastDone.subset hmem
        rw [← hid] at hbefore
        exact absurd hbefore (happears.not_existed hdoneFresh)

/-! ### Failures -/

/-- A failure of the challenge was recorded. -/
def recorded (challengeId : ChallengeId) : EmailLabel → Bool
  | .ask _ (.writeItem write) (.ok (some _)) => write.key = .challenge challengeId
  | _ => false

/-- How many failures of the challenge were recorded. -/
def failures (challengeId : ChallengeId) (labels : List EmailLabel) : ℕ :=
  labels.countP (recorded challengeId)

theorem eq_ask_of_recorded (hrecorded : recorded challengeId label = true) :
    ∃ pid write item, label = .ask pid (.writeItem write) (.ok (some item)) ∧
      write.key = .challenge challengeId := by
  cases label with
  | ask pid r reply =>
      cases r with
      | writeItem write =>
          cases reply with
          | error cause => cases hrecorded
          | ok written =>
              cases written with
              | none => cases hrecorded
              | some item => exact ⟨pid, write, item, rfl, of_decide_eq_true hrecorded⟩
      | get key => cases hrecorded
      | transact writes => cases hrecorded
      | query selected => cases hrecorded
  | start pid call => cases hrecorded
  | halt pid cause => cases hrecorded
  | environment => cases hrecorded

/-- A recorded failure counts on the challenge. -/
theorem counted_of_recorded (hpast : Run (emailSystem scope).Step (.idle table) past before)
    (hstep : (emailSystem scope).Step before label after)
    (hrecorded : recorded challengeId label = true) :
    ∃ challenge, before.store (.challenge challengeId) = some challenge ∧
      after.store (.challenge challengeId) =
        some { challenge with attempts := challenge.attempts + 1 } := by
  obtain ⟨pid, write, item, hlabel, hkey⟩ := eq_ask_of_recorded hrecorded
  subst hlabel
  cases hstep with
  | ask pid call r next reply store hprocess hanswers =>
      have hserves : Serves before.store (.writeItem write) (.ok (some item)) store := hanswers
      have hrequest := emailRequest_of_process hpast hprocess
      generalize hasked : (StoreRequest.writeItem write : IdentityRequest) = r at hrequest
      cases hrequest with
      | read r hread =>
          rw [← hasked] at hread
          cases hread
      | created challenge emailLookup tracker => cases hasked
      | completed other now newAccount newSession view => cases hasked
      | failed other now hcall =>
          cases hasked
          cases hkey
          cases hserves with
          | written write hholds =>
              change (before.store (.challenge challengeId)).any _ = true at hholds
              obtain ⟨challenge, hfind, _⟩ := (Option.any_eq_true ..).mp hholds
              refine ⟨challenge, hfind, ?_⟩
              have heffect := Write.apply_self (DynamoIdentity.recordFailureWrite challengeId now
                scope.maxAttempts) before.store
              change Write.apply _ before.store (.challenge challengeId) =
                (before.store (.challenge challengeId)).map _ at heffect
              rw [hfind] at heffect
              exact heffect

/-- Failures are recorded of challenges that are there. -/
theorem failures_eq_zero (hrun : Run (emailSystem scope).Step (.idle table) labels final)
    (hunknown : ¬ Existed table labels challengeId) : failures challengeId labels = 0 := by
  apply List.countP_eq_zero.mpr
  intro label hmem hrecorded
  obtain ⟨front, back, hsplit⟩ := List.append_of_mem hmem
  rw [hsplit] at hrun
  obtain ⟨before, hfront, after, hstep, _⟩ := run_append.mp hrun
  obtain ⟨challenge, hfind, _⟩ := counted_of_recorded hfront hstep hrecorded
  apply hunknown
  rw [hsplit]
  exact (existed_of_run hfront (by simp [hfind])).mono fun _ hfrontMem =>
    List.mem_append_left _ hfrontMem

theorem failures_le_attempts (hrun : Run (emailSystem scope).Step (.idle table) labels final)
    (hfresh : FreshChallenges table labels) {challenge : AuthChallenge}
    (hfind : final.store (.challenge challengeId) = some challenge) :
    failures challengeId labels ≤ challenge.attempts := by
  have hall := Run.invariant (I := fun past (state : EmailState) =>
    Run (emailSystem scope).Step (.idle table) past state ∧ (FreshChallenges table past →
      ∀ challenge, state.store (.challenge challengeId) = some challenge →
        failures challengeId past ≤ challenge.attempts)) ?_ ?_ hrun
  · exact hall.2 hfresh challenge hfind
  · exact ⟨run_nil.mpr rfl, fun _ _ _ => Nat.zero_le _⟩
  · intro past before label after hpast hstep
    refine ⟨run_snoc.mpr ⟨before, hpast.1, hstep⟩, ?_⟩
    intro hlater later hafter
    have hpastFresh := hlater.mono fun _ hmem => List.mem_append_left [label] hmem
    have hcount : failures challengeId (past ++ [label]) =
        failures challengeId past + if recorded challengeId label then 1 else 0 := by
      unfold failures
      rw [List.countP_append, List.countP_singleton]
    rw [hcount]
    split_ifs with hrecorded
    · obtain ⟨challenge, hbefore, hcounted⟩ := counted_of_recorded hpast.1 hstep hrecorded
      rw [hafter, Option.some.injEq] at hcounted
      rw [hcounted]
      exact Nat.succ_le_succ (hpast.2 hpastFresh challenge hbefore)
    · cases challenge_of_step hpast.1 hstep hafter with
      | inl hbefore =>
          obtain ⟨challenge, hearlier, hcontinues⟩ := hbefore
          exact (hpast.2 hpastFresh challenge hearlier).trans hcontinues.attempts
      | inr hnew =>
          obtain ⟨_, hid, happears⟩ := hnew
          have hunknown := happears.not_existed hpastFresh
          rw [hid] at hunknown
          rw [failures_eq_zero hpast.1 hunknown]
          exact Nat.zero_le _

end Runs

/-! ## Sign-ins -/

/-- A step of a completion of the challenge puts the session. -/
structure Yields (before after : EmailState) (pid : ℕ) (challengeId : ChallengeId)
    (session : AuthSession) : Prop where
  completing : ∃ now newAccount newSession program, before.process pid =
    some ⟨.completeEmailChallenge challengeId now newAccount newSession, program⟩
  absent : before.store (.session session.accountId session.id) = none
  put : after.store (.session session.accountId session.id) = some session

/-- The transaction of a completion, when it takes effect. -/
structure Completed (scope : EmailScope) (known : List IdentityAnswer)
    (before after : IdentityTable) (challengeId : ChallengeId) (now : Time)
    (newAccount : Account) (newSession : AuthSession)
    (view : DynamoIdentity.CompletionView) (challenge : AuthChallenge) : Prop where
  keys : ((DynamoIdentity.completeEmailChallengeWrites scope.lookupDigest challengeId now
    scope.maxAttempts newAccount newSession view).map Write.key).Nodup
  holds : ∀ write ∈ DynamoIdentity.completeEmailChallengeWrites scope.lookupDigest challengeId now
    scope.maxAttempts newAccount newSession view, write.Holds before
  effect : after = applyAll (DynamoIdentity.completeEmailChallengeWrites scope.lookupDigest
    challengeId now scope.maxAttempts newAccount newSession view) before
  read : (⟨.get (.challenge challengeId), .ok (some challenge)⟩ : IdentityAnswer) ∈ known
  checked : DynamoIdentity.completable now scope.maxAttempts newAccount challenge =
    some view.emailLookup
  tracker : (⟨.get (.tracker (scope.lookupDigest view.emailLookup)), .ok view.tracker⟩ :
    IdentityAnswer) ∈ known
  account : AccountRead scope known view
  old : ∀ emailLookup other, UsableChallenge after emailLookup other →
    UsableChallenge before emailLookup other

section SignIns

variable {scope : EmailScope} {table : IdentityTable} {before middle after final : EmailState}
  {labels past rest : List EmailLabel} {pid : ℕ} {r : IdentityRequest}
  {reply : StoreRequest.Response Fault r} {challengeId : ChallengeId} {session : AuthSession}

/-- A session appears by a completion that takes effect. -/
theorem completed_of_session (hpast : Run (emailSystem scope).Step (.idle table) past before)
    (hstep : (emailSystem scope).Step before (.ask pid r reply) after) {accountId : AccountId}
    {sessionId : SessionId} (hbefore : before.store (.session accountId sessionId) ≠ some session)
    (hafter : after.store (.session accountId sessionId) = some session) :
    ∃ challengeId now newAccount newSession view challenge,
      (∃ program, before.process pid =
        some ⟨.completeEmailChallenge challengeId now newAccount newSession, program⟩) ∧
      session = { newSession with accountId := (view.existingAccount.getD newAccount).id } ∧
      session.accountId = accountId ∧ session.id = sessionId ∧
      before.store (.session accountId sessionId) = none ∧
      Completed scope (answersOf pid past) before.store after.store challengeId now newAccount
        newSession view challenge := by
  cases hstep with
  | ask pid call r next reply store hprocess hanswers =>
      have hserves : Serves before.store r reply store := hanswers
      have hrequest := emailRequest_of_process hpast hprocess
      have husable := fun emailLookup other =>
        @usable_of_served scope call (answersOf pid past) r reply before.store store hrequest
          hserves emailLookup other
      dsimp only at hafter
      cases hserves.effect with
      | inl hsame =>
          rw [hsame] at hafter
          exact absurd hafter hbefore
      | inr hwritten =>
          obtain ⟨hkeys, hholds, happlied⟩ := hwritten
          have hmem : .session accountId sessionId ∈ r.writes.map Write.key := by
            apply exists_of_applyAll_ne
            rw [← happlied, hafter]
            exact hbefore.symm
          obtain ⟨write, hwrite, hkey⟩ := List.mem_map.mp hmem
          cases hrequest with
          | read r hread =>
              rw [hread] at hwrite
              cases hwrite
          | created challenge emailLookup tracker =>
              change write ∈ _ :: _ :: List.map _ _ at hwrite
              rw [List.mem_cons, List.mem_cons, List.mem_map] at hwrite
              obtain hput | htracker | hdelete := hwrite
              · subst hput
                cases hkey
              · subst htracker
                cases hkey
              · obtain ⟨_, _, hsame⟩ := hdelete
                subst hsame
                cases hkey
          | failed challengeId now hcall =>
              have hsame := List.mem_singleton.mp hwrite
              subst hsame
              cases hkey
          | completed challengeId now newAccount newSession view challenge hcall hchallenge
              hcompletable htracker haccount =>
              subst hcall
              have hput := sessionPut_mem scope.lookupDigest challengeId now scope.maxAttempts
                newAccount newSession view
              -- No other write of the transaction is to a session.
              have hsame : write = DynamoIdentity.sessionPut { newSession with
                  accountId := (view.existingAccount.getD newAccount).id } := by
                change write ∈ _ :: (List.map _ _ ++ _ :: (_ ++ [_])) at hwrite
                simp only [List.mem_cons, List.mem_append, List.mem_map, List.not_mem_nil,
                  or_false] at hwrite
                obtain hconsume | hdelete | htracked | hitems | hsession := hwrite
                · subst hconsume
                  cases hkey
                · obtain ⟨_, _, hdeleted⟩ := hdelete
                  subst hdeleted
                  cases hkey
                · subst htracked
                  cases hkey
                · cases hexisting : view.existingAccount with
                  | none =>
                      rw [hexisting] at hitems
                      simp only [DynamoIdentity.accountPuts, List.mem_cons, List.not_mem_nil,
                        or_false] at hitems
                      obtain hitem | hitem | hitem := hitems
                      all_goals
                        subst hitem
                        cases hkey
                  | some account =>
                      rw [hexisting] at hitems
                      have hupdate := List.mem_singleton.mp hitems
                      subst hupdate
                      cases hkey
                · exact hsession
              subst hsame
              cases hkey
              have heffect := applyAll_of_mem hkeys hput before.store
              have hempty := Option.isNone_iff_eq_none.mp (hholds _ hput)
              rw [← happlied] at heffect
              have hsession := Option.some.inj (hafter.symm.trans heffect)
              refine ⟨challengeId, now, newAccount, newSession, view, challenge, ⟨_, hprocess⟩,
                hsession, by rw [hsession], by rw [hsession], hempty, hkeys, hholds, happlied,
                hchallenge, hcompletable, htracker, haccount, ?_⟩
              intro emailLookup other hlater
              cases husable emailLookup other hlater with
              | inl hearlier => exact hearlier
              | inr hcreated =>
                  obtain ⟨_, hsame, _⟩ := hcreated
                  cases hsame

theorem Yields.completed (hpast : Run (emailSystem scope).Step (.idle table) past before)
    (hstep : (emailSystem scope).Step before (.ask pid r reply) after)
    (hyields : Yields before after pid challengeId session) :
    ∃ now newAccount newSession view challenge,
      session = { newSession with accountId := (view.existingAccount.getD newAccount).id } ∧
      Completed scope (answersOf pid past) before.store after.store challengeId now newAccount
        newSession view challenge := by
  obtain ⟨now, newAccount, newSession, program, hprocess⟩ := hyields.completing
  obtain ⟨other, otherNow, otherAccount, otherSession, view, challenge, hother, hsession, _, _, _,
    hcompleted⟩ := completed_of_session hpast hstep (by simp [hyields.absent]) hyields.put
  obtain ⟨otherProgram, hother⟩ := hother
  rw [hprocess, Option.some.injEq] at hother
  cases hother
  exact ⟨now, newAccount, newSession, view, challenge, hsession, hcompleted⟩

/-- A step yields one session. -/
theorem Yields.unique (hpast : Run (emailSystem scope).Step (.idle table) past before)
    (hstep : (emailSystem scope).Step before (.ask pid r reply) after)
    (hyields : Yields before after pid challengeId session) {other : ChallengeId}
    {otherSession : AuthSession} (hother : Yields before after pid other otherSession) :
    otherSession = session := by
  obtain ⟨now, newAccount, newSession, view, challenge, hsession, hcompleted⟩ :=
    hyields.completed hpast hstep
  have hchanged : after.store (.session otherSession.accountId otherSession.id) ≠
      before.store (.session otherSession.accountId otherSession.id) := by
    rw [hother.put, hother.absent]
    exact Option.some_ne_none _
  rw [hcompleted.effect] at hchanged
  have hkey := exists_of_applyAll_ne hchanged
  have hsame : otherSession.accountId = session.accountId ∧ otherSession.id = session.id := by
    rw [hsession]
    cases haccount : view.existingAccount <;>
      simpa [DynamoIdentity.completeEmailChallengeWrites, haccount,
        DynamoIdentity.consumeEmailChallenge, DynamoIdentity.challengeDelete,
        DynamoIdentity.trackerPut, DynamoIdentity.accountPuts, DynamoIdentity.updateAccount,
        DynamoIdentity.sessionPut, Write.update, Write.delete, Write.putNew, Write.putIf] using hkey
  have hput := hother.put
  rw [hsame.1, hsame.2, hyields.put] at hput
  exact (Option.some.inj hput).symm

/-- What was usable of the challenge later was usable before. -/
theorem usable_of_follows {first second : IdentityTable} {emailLookup : String}
    (hfollows : CompletionFollows (first (.challenge challengeId)) (second (.challenge challengeId)))
    (husable : UsableChallenge second emailLookup challengeId) :
    UsableChallenge first emailLookup challengeId := by
  obtain ⟨later, hlater, hpurpose, hemail, hunconsumed⟩ := husable
  obtain ⟨challenge, hfind, hcontinues⟩ := hfollows later hlater
  refine ⟨challenge, hfind, hcontinues.purpose.symm.trans hpurpose,
    hcontinues.email.symm.trans hemail, ?_⟩
  by_contra hconsumed
  have hstill := hcontinues.consumed (Option.isSome_iff_ne_none.mpr hconsumed)
  rw [hunconsumed] at hstill
  cases hstill

/-- The challenge that a completion consumes is usable, of the email that was
read, and below the limit of failures. -/
theorem Completed.usable (hpast : Run (emailSystem scope).Step (.idle table) past before)
    (hfresh : FreshChallenges table past) {now : Time} {newAccount : Account}
    {newSession : AuthSession} {view : DynamoIdentity.CompletionView} {challenge : AuthChallenge}
    (hcompleted : Completed scope (answersOf pid past) before.store after.store challengeId now
      newAccount newSession view challenge) :
    ∃ current, before.store (.challenge challengeId) = some current ∧
      current.purpose = .emailLogin ∧ current.emailLookup = some view.emailLookup ∧
      current.consumedAt = none ∧ current.attempts < scope.maxAttempts := by
  have hholds := hcompleted.holds _ List.mem_cons_self
  change (before.store (.challenge challengeId)).any _ = true at hholds
  obtain ⟨current, hfind, hvalid⟩ := (Option.any_eq_true ..).mp hholds
  unfold DynamoIdentity.attemptable at hvalid
  simp only [Bool.and_eq_true, decide_eq_true_eq, Option.isNone_iff_eq_none] at hvalid
  obtain ⟨earlier, rest, middle, hlabels, hearlier, hseen, hrest⟩ :=
    table_of_read hpast hcompleted.read
  have hexisted := existed_of_run hearlier
    (show middle.store (.challenge challengeId) ≠ none by simp [hseen])
  obtain ⟨first, hfirst, hcontinues⟩ := follows_of_run hearlier hrest
    (by rw [← hlabels]; exact hfresh) hexisted current hfind
  rw [hseen, Option.some.injEq] at hfirst
  subst hfirst
  refine ⟨current, hfind, hvalid.1, ?_, hvalid.2.1.1, hvalid.2.2⟩
  rw [hcontinues.email]
  exact (completable_eq_some hcompleted.checked).1

/-- The session is for the account of the email alias. -/
theorem Completed.alias (hlinked : AccountsLinked scope table)
    (hpast : Run (emailSystem scope).Step (.idle table) past before) {now : Time}
    {newAccount : Account} {newSession : AuthSession} {view : DynamoIdentity.CompletionView}
    {challenge : AuthChallenge} (hgrows : TableGrows before.store after.store)
    (hcompleted : Completed scope (answersOf pid past) before.store after.store challengeId now
      newAccount newSession view challenge) :
    after.store (.emailAlias (scope.lookupDigest view.emailLookup)) =
      some ⟨(view.existingAccount.getD newAccount).id⟩ := by
  cases hexisting : view.existingAccount with
  | none =>
      have hput : Write.putNew (.emailAlias (scope.lookupDigest view.emailLookup))
          (⟨newAccount.id⟩ : AccountAlias) ∈ DynamoIdentity.completeEmailChallengeWrites
            scope.lookupDigest challengeId now scope.maxAttempts newAccount newSession view := by
        apply List.mem_cons_of_mem
        apply List.mem_append_right
        apply List.mem_cons_of_mem
        rw [hexisting]
        apply List.mem_append_left
        exact List.mem_cons_of_mem _ List.mem_cons_self
      rw [hcompleted.effect]
      exact applyAll_of_mem hcompleted.keys hput before.store
  | some account =>
      obtain ⟨aliasItem, halias, hprofile⟩ := hcompleted.account.2 account hexisting
      obtain ⟨_, _, _, _, hearlier, hseen, hrest⟩ := table_of_read hpast halias
      obtain ⟨_, _, read, _, hread, hfound, _⟩ := table_of_read hpast hprofile
      have hid := ((accountsLinked_of_run hlinked hread).profile _ account hfound).1
      have hbefore := (tableGrows_of_run hearlier hrest).emailAlias _ aliasItem hseen
      have hafter := hgrows.emailAlias _ aliasItem hbefore
      rw [hafter, Option.getD_some, hid]

/-- A returned session was put by a step of the call. -/
theorem replays_completed {lookupDigest : String → String} {now : Time} {maxAttempts : ℕ}
    {newAccount : Account} {newSession : AuthSession} {attempts : ℕ} {answers : List IdentityAnswer}
    {completed : CompletedEmailSignIn}
    (hreplays : (DynamoIdentity.completeEmailChallengeAttempts lookupDigest challengeId now
      maxAttempts newAccount newSession attempts).Replays answers (.done (some completed))) :
    ∃ view, (⟨.transact (DynamoIdentity.completeEmailChallengeWrites lookupDigest challengeId now
        maxAttempts newAccount newSession view), .committed⟩ : IdentityAnswer) ∈ answers ∧
      completed = DynamoIdentity.completedEmailSignIn now newAccount newSession view := by
  induction attempts generalizing answers with
  | zero => exact hreplays.of_fault.elim
  | succ attempts ih =>
      obtain ⟨found, first, second, hanswers, hread, hsecond⟩ := hreplays.of_bind
      subst hanswers
      dsimp only at hsecond
      cases hcompletable :
          found.bind (DynamoIdentity.completable now maxAttempts newAccount) with
      | none =>
          rw [hcompletable] at hsecond
          have hvalue := (Program.Replays.of_done hsecond).2
          cases hvalue
      | some emailLookup =>
          rw [hcompletable] at hsecond
          obtain ⟨tracker, third, fourth, hanswers, _, hfourth⟩ := hsecond.of_bind
          subst hanswers
          obtain ⟨existingAccount, fifth, sixth, hanswers, _, hsixth⟩ := hfourth.of_bind
          subst hanswers
          split_ifs at hsixth
          · have hvalue := (Program.Replays.of_done hsixth).2
            cases hvalue
          · obtain ⟨outcome, tail, hanswers, htail⟩ := Program.Replays.of_request hsixth
            subst hanswers
            cases outcome with
            | committed =>
                have hvalue := (Program.Replays.of_done htail).2
                rw [Option.some.injEq] at hvalue
                exact ⟨_, by simp, hvalue.symm⟩
            | failed cause => exact htail.of_fault.elim
            | canceled reasons =>
                obtain ⟨again, seventh, eighth, hanswers, _, heighth⟩ :=
                  Program.Replays.of_bind htail
                subst hanswers
                split_ifs at heighth
                · obtain ⟨view, hmem, hsame⟩ := ih heighth
                  exact ⟨view, by simp [hmem], hsame⟩
                · have hvalue := (Program.Replays.of_done heighth).2
                  cases hvalue

end SignIns

/-- Email challenges on DynamoDB: trackers stay exact and accounts linked; a
deleted challenge never reappears; a session comes from a usable challenge with
failures left, one a step, for the account of the email, and leaves no challenge
of the email usable that existed by then, so that its own yields no other
session. -/
theorem dynamo_email_challenges (scope : EmailScope)
    (hdigest : Function.Injective scope.lookupDigest) (table : IdentityTable)
    (hexact : TrackersExact scope table) (hlinked : AccountsLinked scope table) :
    (∀ labels final, Run (emailSystem scope).Step (.idle table) labels final →
      TrackersExact scope final.store ∧ AccountsLinked scope final.store ∧
      ∀ emailLookup (challengeIds : List ChallengeId), challengeIds.Nodup →
        (∀ challengeId ∈ challengeIds, UsableChallenge final.store emailLookup challengeId) →
          challengeIds.length ≤ scope.maxLive) ∧
    (∀ past first rest second more final challengeId,
      Run (emailSystem scope).Step (.idle table) past first →
      Run (emailSystem scope).Step first rest second →
      Run (emailSystem scope).Step second more final →
      FreshChallenges table (past ++ rest ++ more) →
      first.store (.challenge challengeId) ≠ none → second.store (.challenge challengeId) = none →
        final.store (.challenge challengeId) = none) ∧
    (∀ past before pid r reply after,
      Run (emailSystem scope).Step (.idle table) past before →
      (emailSystem scope).Step before (.ask pid r reply) after →
      ∀ accountId sessionId session,
        before.store (.session accountId sessionId) ≠ some session →
        after.store (.session accountId sessionId) = some session →
        ∃ challengeId, Yields before after pid challengeId session) ∧
    (∀ past before pid r reply after,
      Run (emailSystem scope).Step (.idle table) past before →
      (emailSystem scope).Step before (.ask pid r reply) after → FreshChallenges table past →
      ∀ challengeId session, Yields before after pid challengeId session →
        failures challengeId past < scope.maxAttempts ∧
        (∀ other otherSession, Yields before after pid other otherSession →
          otherSession = session) ∧
        ∃ challenge emailLookup, before.store (.challenge challengeId) = some challenge ∧
          challenge.purpose = .emailLogin ∧ challenge.emailLookup = some emailLookup ∧
          challenge.consumedAt = none ∧ challenge.attempts < scope.maxAttempts ∧
          after.store (.emailAlias (scope.lookupDigest emailLookup)) = some ⟨session.accountId⟩ ∧
          ∀ rest final, Run (emailSystem scope).Step after rest final →
            FreshChallenges table (past ++ [.ask pid r reply] ++ rest) →
            (∀ other, before.store (.challenge other) ≠ none →
              ¬ UsableChallenge final.store emailLookup other) ∧
            ∀ otherPid otherRequest otherReply later otherSession,
              (emailSystem scope).Step final (.ask otherPid otherRequest otherReply) later →
                ¬ Yields final later otherPid challengeId otherSession) ∧
    ∀ labels final pid challengeId now newAccount newSession completed,
      Run (emailSystem scope).Step (.idle table) labels final →
      final.process pid = some ⟨.completeEmailChallenge challengeId now newAccount newSession,
        .done (some completed)⟩ →
      ∃ past r reply rest before after, labels = past ++ .ask pid r reply :: rest ∧
        Run (emailSystem scope).Step (.idle table) past before ∧
        (emailSystem scope).Step before (.ask pid r reply) after ∧
        Run (emailSystem scope).Step after rest final ∧
        Yields before after pid challengeId completed.session := by
  refine ⟨?_, ?_, ?_, ?_, ?_⟩
  · intro labels final hrun
    have hfinal := trackersExact_of_run hdigest hexact hrun
    exact ⟨hfinal, accountsLinked_of_run hlinked hrun,
      fun _ _ hnodup husable => hfinal.usable_le hnodup husable⟩
  · intro past first rest second more final challengeId hpast hrest hmore hfresh hfirst hsecond
    have hmiddle := run_append.mpr ⟨first, hpast, hrest⟩
    have hexisted : Existed table (past ++ rest) challengeId :=
      (existed_of_run hpast hfirst).mono fun _ hmem => List.mem_append_left _ hmem
    have hfollows := follows_of_run hmiddle hmore hfresh hexisted
    cases hfinal : final.store (.challenge challengeId) with
    | none => rfl
    | some later =>
        obtain ⟨challenge, hfind, _⟩ := hfollows later hfinal
        rw [hsecond] at hfind
        cases hfind
  · intro past before pid r reply after hpast hstep accountId sessionId session hbefore hafter
    obtain ⟨challengeId, now, newAccount, newSession, view, challenge, hprocess, hsession, haccount,
      hid, hempty, _⟩ := completed_of_session hpast hstep hbefore hafter
    obtain ⟨program, hprocess⟩ := hprocess
    refine ⟨challengeId, ⟨now, newAccount, newSession, program, hprocess⟩, ?_, ?_⟩
    · rw [haccount, hid]
      exact hempty
    · rw [haccount, hid]
      exact hafter
  · intro past before pid r reply after hpast hstep hfresh challengeId session hyields
    obtain ⟨now, newAccount, newSession, view, challenge, hsession, hcompleted⟩ :=
      hyields.completed hpast hstep
    obtain ⟨current, hfind, hpurpose, hemail, hunconsumed, hattempts⟩ :=
      hcompleted.usable hpast hfresh
    have halias := hcompleted.alias hlinked hpast (grows_of_step hpast hstep)
    refine ⟨(failures_le_attempts hpast hfresh hfind).trans_lt hattempts,
      fun _ _ hother => hyields.unique hpast hstep hother, current, view.emailLookup, hfind,
      hpurpose, hemail, hunconsumed, hattempts, ?_, ?_⟩
    · rw [halias, hsession]
    · intro rest final hrest hlater
      have hafter : Run (emailSystem scope).Step (.idle table) (past ++ [.ask pid r reply]) after :=
        run_snoc.mpr ⟨before, hpast, hstep⟩
      have hview := readsCurrent_of_run hpast pid view.emailLookup view.tracker []
        hcompleted.tracker (hcompleted.holds _ (trackerPut_mem _ _ _ _ _ _ view))
      -- No challenge that existed is usable right after, and none becomes so.
      have hunusable : ∀ other, before.store (.challenge other) ≠ none →
          ¬ UsableChallenge final.store view.emailLookup other := by
        intro other hexists husable
        have hexisted : Existed table (past ++ [.ask pid r reply]) other :=
          (existed_of_run hpast hexists).mono fun _ hmem => List.mem_append_left _ hmem
        have hthen := usable_of_follows (follows_of_run hafter hrest hlater hexisted) husable
        exact unusable_of_completed (trackersExact_of_run hdigest hexact hpast) hview
          hcompleted.keys hcompleted.effect hcompleted.old other hthen
      refine ⟨hunusable, ?_⟩
      intro otherPid otherRequest otherReply later otherSession hotherStep hagain
      obtain ⟨_, _, _, otherView, _, _, hother⟩ :=
        hagain.completed (run_append.mpr ⟨after, hafter, hrest⟩) hotherStep
      obtain ⟨last, hlast, hlastPurpose, hlastEmail, hlastUnconsumed, _⟩ :=
        hother.usable (run_append.mpr ⟨after, hafter, hrest⟩) hlater
      have hexists : before.store (.challenge challengeId) ≠ none := by simp [hfind]
      have hsteps : Run (emailSystem scope).Step before (.ask pid r reply :: rest) final :=
        run_cons.mpr ⟨after, hstep, hrest⟩
      obtain ⟨first, hfirst, hcontinues⟩ := follows_of_run hpast hsteps (by simpa using hlater)
        (existed_of_run hpast hexists) last hlast
      rw [hfind, Option.some.injEq] at hfirst
      subst hfirst
      exact hunusable challengeId hexists
        ⟨last, hlast, hlastPurpose, hcontinues.email.trans hemail, hlastUnconsumed⟩
  · intro labels final pid challengeId now newAccount newSession completed hrun hdone
    cases System.replays_of_run hrun hdone with
    | inl hfault =>
        obtain ⟨cause, hfault⟩ := hfault
        cases hfault
    | inr hreplays =>
        obtain ⟨view, hmem, hcompleted⟩ := replays_completed hreplays
        obtain ⟨past, rest, before, call, next, store, hlabels, hpast, hprocess, hanswers, hrest⟩ :=
          System.exists_of_ask hrun (mem_answersOf.mp hmem)
        have hstep := System.Step.ask pid call _ next _ store hprocess hanswers
        obtain ⟨program, hstays⟩ := System.call_stays hrest (Function.update_self _ _ _)
        rw [hdone, Option.some.injEq] at hstays
        cases hstays
        have hput := sessionPut_mem scope.lookupDigest challengeId now scope.maxAttempts
          newAccount newSession view
        have hserves : Serves before.store (.transact (DynamoIdentity.completeEmailChallengeWrites
          scope.lookupDigest challengeId now scope.maxAttempts newAccount newSession view))
          (Outcome.committed : Outcome Fault) store := hanswers
        rw [hcompleted]
        refine ⟨past, _, _, rest, before, _, hlabels, hpast, hstep, hrest,
          ⟨now, newAccount, newSession, _, hprocess⟩, ?_, ?_⟩
        · cases hserves with
          | committed writes hkeys hholds => exact Option.isNone_iff_eq_none.mp (hholds _ hput)
        · cases hserves with
          | committed writes hkeys hholds => exact applyAll_of_mem hkeys hput before.store

/-- A challenge for an address that has no account. -/
def adaChallenge : AuthChallenge where
  id := 9
  purpose := .emailLogin
  accountId := none
  emailLookup := some "ada@example.org"
  linkTokenDigest := some "link"
  codeDigest := some "12345678"
  webauthnStateJson := none
  attempts := 0
  createdAt := 0
  expiresAt := 100
  consumedAt := none

def adaAccount : Account :=
  ⟨1, "ada@example.org", "ada@example.org", 1, "handle", .active, 1, 1, 1⟩

def adaSession : AuthSession where
  id := 2
  tokenDigest := "token"
  accountId := 1
  kind := .browser
  csrfDigest := none
  apiKeyId := none
  createdAt := 1
  lastSeenAt := 1
  expiresAt := 50
  absoluteExpiresAt := 100
  revokedAt := none

abbrev adaSignIn : EmailCall := .completeEmailChallenge 9 1 adaAccount adaSession

def adaScope : EmailScope := ⟨id, 3, 5⟩

/-- The table once the challenge was created. -/
def adaChallenged : IdentityTable × Except Fault Unit :=
  ((EmailCall.createEmailChallenge adaChallenge).program adaScope).exec
    (answerUndisturbed (.bail "canceled")) fun _ => none

def adaSignedIn : IdentityTable × Except Fault (Option CompletedEmailSignIn) :=
  (adaSignIn.program adaScope).exec (answerUndisturbed (.bail "canceled")) adaChallenged.1

/-- A run from the empty table in which an address without an account signs in. -/
theorem dynamo_email_challenges_signIn :
    ∃ labels final completed,
      Run (emailSystem adaScope).Step (.idle fun _ => none) labels final ∧
      final.process 1 = some ⟨adaSignIn, .done (some completed)⟩ ∧
      TrackersExact adaScope final.store ∧ AccountsLinked adaScope final.store ∧
      ∃ past r reply rest before after, labels = past ++ .ask 1 r reply :: rest ∧
        (emailSystem adaScope).Step before (.ask 1 r reply) after ∧
        Yields before after 1 9 completed.session := by
  have hexact : TrackersExact adaScope fun _ => none := by
    constructor
    · intro digest tracker hfind
      cases hfind
    · intro digest tracker hfind
      cases hfind
    · intro emailLookup challengeId husable
      obtain ⟨challenge, hfind, _⟩ := husable
      cases hfind
  have hlinked : AccountsLinked adaScope fun _ => none := by
    constructor
    · intro digest aliasItem hfind
      cases hfind
    · intro digest aliasItem hfind
      cases hfind
    · intro accountId account hfind
      cases hfind
  have hanswer : ∀ pid store r after reply,
      answerUndisturbed (Fault.bail "canceled") store r = .ok (after, reply) →
        (emailSystem adaScope).answers pid store r reply after := by
    intro pid store r after reply hanswer
    exact serves_answerUndisturbed hanswer
  have hsignedIn : adaSignedIn.2.toOption.join.isSome = true := by decide +kernel
  cases hvalue : adaSignedIn.2 with
  | error cause =>
      rw [hvalue] at hsignedIn
      cases hsignedIn
  | ok found =>
      cases found with
      | none =>
          rw [hvalue] at hsignedIn
          cases hsignedIn
      | some completed =>
          have hcreate : ((emailSystem adaScope).body (.createEmailChallenge adaChallenge)).exec
              (answerUndisturbed (Fault.bail "canceled")) (fun _ => none) =
                (adaChallenged.1, .ok ()) := rfl
          have hcomplete : ((emailSystem adaScope).body adaSignIn).exec
              (answerUndisturbed (Fault.bail "canceled")) adaChallenged.1 =
                (adaSignedIn.1, .ok (some completed)) := by
            rw [← hvalue]
            rfl
          have hfree : Function.update (fun _ => none) 0
              (some ⟨.createEmailChallenge adaChallenge, .done ()⟩) 1 =
                (none : Option ((call : EmailCall) × TableProgram call.Result)) := rfl
          have hadmits : ∀ pid store call, (emailSystem adaScope).admits pid store call :=
            fun _ _ _ => trivial
          have hfirst : ∃ labels, Run (emailSystem adaScope).Step (.idle fun _ => none)
              (.start 0 (.createEmailChallenge adaChallenge) :: labels) ⟨adaChallenged.1,
                Function.update (fun _ => none) 0
                  (some ⟨.createEmailChallenge adaChallenge, .done ()⟩)⟩ :=
            System.exists_run_of_call (hanswer 0) rfl (hadmits _ _ _) hcreate
          obtain ⟨first, hfirst⟩ := hfirst
          obtain ⟨second, hsecond⟩ :=
            System.exists_run_of_call (hanswer 1) hfree (hadmits _ _ _) hcomplete
          have hrun := run_append.mpr ⟨_, hfirst, hsecond⟩
          have hlaws := dynamo_email_challenges adaScope Function.injective_id _ hexact hlinked
          obtain ⟨past, r, reply, rest, before, after, hlabels, _, hstep, _, hyields⟩ :=
            hlaws.2.2.2.2 _ _ 1 9 1 adaAccount adaSession completed hrun rfl
          exact ⟨_, _, completed, hrun, rfl, (hlaws.1 _ _ hrun).1, (hlaws.1 _ _ hrun).2.1, past, r,
            reply, rest, before, after, hlabels, hstep, hyields⟩

end SeizaServer
