import SeizaServer.DynamoIdentityRepository
import SeizaServer.InterleavedPrograms

/-!
# Passkeys on DynamoDB

A passkey and the lookup of its credential are separate items.  Whatever calls
interleave, there is a lookup for a credential exactly while one unrevoked
passkey carries it, and a ceremony succeeds at most once.
-/

namespace SeizaServer

open Interaction Transition TransactionalStore

/-! ## Calls -/

inductive PasskeyCall where
  | createPasskey (passkey : PasskeyCredential)
  | completePasskeyRegistration (challengeId : ChallengeId) (passkey : PasskeyCredential)
      (now : Time)
  | completePasskeySignIn (challengeId : ChallengeId) (passkey : PasskeyCredential)
      (session : AuthSession) (now : Time)
  | revokePasskey (accountId : AccountId) (passkeyId : Uuid) (revokedAt : Time)

@[reducible] def PasskeyCall.Result : PasskeyCall → Type
  | .createPasskey _ => Unit
  | .completePasskeyRegistration .. => Bool
  | .completePasskeySignIn .. => Option CompletedPasskeySignIn
  | .revokePasskey .. => Bool

def PasskeyCall.program (lookupDigest : String → String) :
    (call : PasskeyCall) → TableProgram call.Result
  | .createPasskey passkey => DynamoIdentity.createPasskey lookupDigest passkey
  | .completePasskeyRegistration challengeId passkey now =>
      DynamoIdentity.completePasskeyRegistration lookupDigest challengeId passkey now
  | .completePasskeySignIn challengeId passkey session now =>
      DynamoIdentity.completePasskeySignIn challengeId passkey session now
  | .revokePasskey accountId passkeyId revokedAt =>
      DynamoIdentity.revokePasskey lookupDigest accountId passkeyId revokedAt

/-- New passkeys are not revoked. -/
def PasskeyCall.Proper : PasskeyCall → Prop
  | .createPasskey passkey => passkey.revokedAt = none
  | .completePasskeyRegistration _ passkey _ => passkey.revokedAt = none
  | _ => True

/-- The challenge that a call consumes. -/
def PasskeyCall.challenge? : PasskeyCall → Option ChallengeId
  | .completePasskeyRegistration challengeId _ _ => some challengeId
  | .completePasskeySignIn challengeId _ _ _ => some challengeId
  | _ => none

/-- What the rest of the service and the time to live do to the table: they
leave passkeys and lookups alone, and a challenge stays as it is or goes. -/
structure PasskeyDrift (before after : IdentityTable) : Prop where
  passkeys : ∀ accountId passkeyId,
    after (.passkey accountId passkeyId) = before (.passkey accountId passkeyId)
  credentials : ∀ digest, after (.credential digest) = before (.credential digest)
  challenges : ∀ challengeId, after (.challenge challengeId) = before (.challenge challengeId) ∨
    after (.challenge challengeId) = none

def passkeySystem (lookupDigest : String → String) :
    System PasskeyCall IdentityRequest (StoreRequest.Response Fault) Fault PasskeyCall.Result
      IdentityTable where
  body := PasskeyCall.program lookupDigest
  admits := fun _ _ call => call.Proper
  answers := fun _ => Serves
  halts := fun _ before after => after = before
  environment := PasskeyDrift

/-! ## The requests of the calls -/

/-- The transaction of `create_passkey`. -/
def createPasskeyWrites (lookupDigest : String → String) (passkey : PasskeyCredential) :
    List IdentityWrite :=
  [DynamoIdentity.activeAccountCheck passkey.accountId, DynamoIdentity.passkeyPut passkey,
    DynamoIdentity.credentialPut lookupDigest passkey]

inductive PasskeyRequest (lookupDigest : String → String) : IdentityRequest → Prop where
  | read (r : IdentityRequest) (hread : r.writes = []) : PasskeyRequest lookupDigest r
  | created (passkey : PasskeyCredential) (hnew : passkey.revokedAt = none) :
      PasskeyRequest lookupDigest (.transact (createPasskeyWrites lookupDigest passkey))
  | registered (challengeId : ChallengeId) (passkey : PasskeyCredential) (now : Time)
      (hnew : passkey.revokedAt = none) : PasskeyRequest lookupDigest
        (.transact (DynamoIdentity.registrationWrites lookupDigest challengeId passkey now))
  | signedIn (challengeId : ChallengeId) (passkey : PasskeyCredential) (session : AuthSession)
      (now : Time) (haccount : passkey.accountId = session.accountId) : PasskeyRequest lookupDigest
        (.transact (DynamoIdentity.passkeySignInWrites challengeId passkey session now))
  | revoked (accountId : AccountId) (passkeyId : Uuid) (passkey : PasskeyCredential)
      (revokedAt : Time) : PasskeyRequest lookupDigest (.transact
        (DynamoIdentity.revokePasskeyWrites lookupDigest accountId passkeyId passkey revokedAt))

section Requests

variable {lookupDigest : String → String}

theorem issues_transactRefusable {P : IdentityRequest → Prop} {α : Type}
    {writes : List IdentityWrite} (hwrites : P (.transact writes)) {committed : TableProgram α}
    (hcommitted : committed.Issues P) (refused : α) (conflicted : String) (attempts : ℕ) :
    (DynamoIdentity.transactRefusable writes committed refused conflicted attempts).Issues P := by
  induction attempts with
  | zero => trivial
  | succ attempts ih =>
      refine ⟨hwrites, fun outcome => ?_⟩
      cases outcome with
      | committed => exact hcommitted
      | canceled reasons =>
          dsimp only
          split_ifs
          · trivial
          · exact ih
      | failed cause => trivial

theorem issues_revokePasskey (accountId : AccountId) (passkeyId : Uuid) (revokedAt : Time)
    (attempts : ℕ) :
    (DynamoIdentity.revokePasskeyAttempts lookupDigest accountId passkeyId revokedAt
      attempts).Issues (PasskeyRequest lookupDigest) := by
  induction attempts with
  | zero => trivial
  | succ attempts ih =>
      refine ⟨.read _ rfl, fun reply => ?_⟩
      cases reply with
      | error cause => trivial
      | ok found =>
          cases found with
          | none => trivial
          | some passkey =>
              change (if passkey.revokedAt.isSome then _ else _ : TableProgram Bool).Issues _
              split_ifs
              · trivial
              · refine ⟨.revoked accountId passkeyId passkey revokedAt, fun outcome => ?_⟩
                cases outcome with
                | committed => trivial
                | canceled reasons =>
                    dsimp only
                    split_ifs
                    · trivial
                    · exact ih
                | failed cause => trivial

theorem issues_passkeyCall {call : PasskeyCall} (hproper : call.Proper) :
    (call.program lookupDigest).Issues (PasskeyRequest lookupDigest) := by
  cases call with
  | createPasskey passkey =>
      refine ⟨.created passkey hproper, fun outcome => ?_⟩
      cases outcome with
      | committed => trivial
      | canceled reasons => trivial
      | failed cause => trivial
  | completePasskeyRegistration challengeId passkey now =>
      exact issues_transactRefusable (.registered challengeId passkey now hproper)
        (by exact trivial) _ _ _
  | completePasskeySignIn challengeId passkey session now =>
      change (DynamoIdentity.completePasskeySignIn challengeId passkey session now).Issues _
      unfold DynamoIdentity.completePasskeySignIn
      split_ifs with haccount
      · trivial
      · rw [not_not] at haccount
        apply issues_transactRefusable (.signedIn challengeId passkey session now haccount)
        refine ⟨.read _ rfl, fun reply => ?_⟩
        cases reply with
        | error cause => trivial
        | ok found =>
            cases found with
            | none => trivial
            | some account => trivial
  | revokePasskey accountId passkeyId revokedAt => exact issues_revokePasskey _ _ _ _

end Requests

/-! ## Lookups and passkeys -/

/-- An unrevoked passkey that carries the credential. -/
def Carries (table : IdentityTable) (credentialId : String) (accountId : AccountId)
    (passkeyId : Uuid) : Prop :=
  ∃ passkey, table (.passkey accountId passkeyId) = some passkey ∧
    passkey.credentialId = credentialId ∧ passkey.revokedAt = none

/-- The lookup of a credential names exactly the unrevoked passkey with it. -/
def PasskeysConsistent (lookupDigest : String → String) (table : IdentityTable) : Prop :=
  ∀ credentialId accountId passkeyId,
    table (.credential (lookupDigest credentialId)) = some ⟨accountId, passkeyId⟩ ↔
      Carries table credentialId accountId passkeyId

section Consistency

variable {lookupDigest : String → String} {table : IdentityTable}

/-- Registering a credential that has no lookup. -/
theorem PasskeysConsistent.register (hconsistent : PasskeysConsistent lookupDigest table)
    (hdigest : Function.Injective lookupDigest) {passkey : PasskeyCredential}
    (hnew : passkey.revokedAt = none) {writes : List IdentityWrite}
    (hkeys : (writes.map Write.key).Nodup) (hholds : ∀ write ∈ writes, write.Holds table)
    (hpasskey : DynamoIdentity.passkeyPut passkey ∈ writes)
    (hcredential : DynamoIdentity.credentialPut lookupDigest passkey ∈ writes)
    (hothers : ∀ write ∈ writes, write ≠ DynamoIdentity.passkeyPut passkey →
      write ≠ DynamoIdentity.credentialPut lookupDigest passkey →
        (∀ accountId passkeyId, write.key ≠ .passkey accountId passkeyId) ∧
          ∀ digest, write.key ≠ .credential digest) :
    PasskeysConsistent lookupDigest (applyAll writes table) := by
  have hnoPasskey : table (.passkey passkey.accountId passkey.id) = none :=
    Option.isNone_iff_eq_none.mp (hholds _ hpasskey)
  have hnoLookup : table (.credential (lookupDigest passkey.credentialId)) = none :=
    Option.isNone_iff_eq_none.mp (hholds _ hcredential)
  have hput : applyAll writes table (.passkey passkey.accountId passkey.id) = some passkey :=
    applyAll_of_mem hkeys hpasskey table
  have hlookup : applyAll writes table (.credential (lookupDigest passkey.credentialId)) =
      some ⟨passkey.accountId, passkey.id⟩ := applyAll_of_mem hkeys hcredential table
  have hotherPasskey : ∀ accountId passkeyId,
      ¬ (accountId = passkey.accountId ∧ passkeyId = passkey.id) →
        applyAll writes table (.passkey accountId passkeyId) =
          table (.passkey accountId passkeyId) := by
    intro accountId passkeyId hne
    apply applyAll_of_not_mem
    intro hmem
    obtain ⟨write, hwrite, hkey⟩ := List.mem_map.mp hmem
    by_cases hfirst : write = DynamoIdentity.passkeyPut passkey
    · subst hfirst
      cases hkey
      exact hne ⟨rfl, rfl⟩
    · by_cases hsecond : write = DynamoIdentity.credentialPut lookupDigest passkey
      · subst hsecond
        cases hkey
      · exact (hothers write hwrite hfirst hsecond).1 accountId passkeyId hkey
  have hotherLookup : ∀ credentialId, credentialId ≠ passkey.credentialId →
      applyAll writes table (.credential (lookupDigest credentialId)) =
        table (.credential (lookupDigest credentialId)) := by
    intro credentialId hne
    apply applyAll_of_not_mem
    intro hmem
    obtain ⟨write, hwrite, hkey⟩ := List.mem_map.mp hmem
    by_cases hfirst : write = DynamoIdentity.passkeyPut passkey
    · subst hfirst
      cases hkey
    · by_cases hsecond : write = DynamoIdentity.credentialPut lookupDigest passkey
      · subst hsecond
        apply hne
        apply hdigest
        exact (IdentityKey.credential.inj hkey).symm
      · exact (hothers write hwrite hfirst hsecond).2 _ hkey
  intro credentialId accountId passkeyId
  by_cases hsame : accountId = passkey.accountId ∧ passkeyId = passkey.id
  · obtain ⟨haccount, hid⟩ := hsame
    subst haccount hid
    by_cases hcredentialId : credentialId = passkey.credentialId
    · subst hcredentialId
      constructor
      · intro _
        exact ⟨passkey, hput, rfl, hnew⟩
      · intro _
        exact hlookup
    · rw [hotherLookup credentialId hcredentialId, hconsistent]
      constructor
      · intro hcarries
        obtain ⟨other, hother, _⟩ := hcarries
        rw [hnoPasskey] at hother
        cases hother
      · intro hcarries
        obtain ⟨other, hother, hsameCredential, _⟩ := hcarries
        rw [hput, Option.some.injEq] at hother
        subst hother
        exact absurd hsameCredential.symm hcredentialId
  · have hcarries : Carries (applyAll writes table) credentialId accountId passkeyId ↔
        Carries table credentialId accountId passkeyId := by
      unfold Carries
      rw [hotherPasskey accountId passkeyId hsame]
    rw [hcarries]
    by_cases hcredentialId : credentialId = passkey.credentialId
    · subst hcredentialId
      rw [hlookup]
      constructor
      · intro heq
        cases heq
        exact absurd ⟨rfl, rfl⟩ hsame
      · intro hold
        have hfound := (hconsistent _ _ _).mpr hold
        rw [hnoLookup] at hfound
        cases hfound
    · rw [hotherLookup credentialId hcredentialId]
      exact hconsistent credentialId accountId passkeyId

theorem nodup_keys_signIn (challengeId : ChallengeId) (passkey : PasskeyCredential)
    (session : AuthSession) (now : Time) :
    ((DynamoIdentity.passkeySignInWrites challengeId passkey session now).map Write.key).Nodup := by
  simp [DynamoIdentity.passkeySignInWrites, Write.update, DynamoIdentity.sessionPut, Write.putNew,
    Write.putIf, DynamoIdentity.updateAccount]

/-- A sign-in changes neither credentials nor revocations. -/
theorem PasskeysConsistent.signIn (hconsistent : PasskeysConsistent lookupDigest table)
    (challengeId : ChallengeId) (passkey : PasskeyCredential) (session : AuthSession) (now : Time) :
    PasskeysConsistent lookupDigest
      (applyAll (DynamoIdentity.passkeySignInWrites challengeId passkey session now) table) := by
  have hlookups : ∀ digest,
      applyAll (DynamoIdentity.passkeySignInWrites challengeId passkey session now) table
        (.credential digest) = table (.credential digest) := by
    intro digest
    apply applyAll_of_not_mem
    simp [DynamoIdentity.passkeySignInWrites, Write.update, DynamoIdentity.sessionPut, Write.putNew,
      Write.putIf, DynamoIdentity.updateAccount]
  intro credentialId accountId passkeyId
  rw [hlookups, hconsistent]
  unfold Carries
  by_cases hsame : accountId = passkey.accountId ∧ passkeyId = passkey.id
  · obtain ⟨haccount, hid⟩ := hsame
    subst haccount hid
    have hupdated : applyAll (DynamoIdentity.passkeySignInWrites challengeId passkey session now)
        table (.passkey passkey.accountId passkey.id) =
          (table (.passkey passkey.accountId passkey.id)).map fun row =>
            { row with credentialJson := passkey.credentialJson, lastUsedAt := some now } := by
      have hmem : Write.update (.passkey passkey.accountId passkey.id)
          (fun row : PasskeyCredential =>
            row.revokedAt.isNone && row.credentialId = passkey.credentialId)
          (fun row => { row with
            credentialJson := passkey.credentialJson
            lastUsedAt := some now }) ∈
              DynamoIdentity.passkeySignInWrites challengeId passkey session now :=
        List.mem_cons_of_mem _ List.mem_cons_self
      exact applyAll_of_mem (nodup_keys_signIn challengeId passkey session now) hmem table
    rw [hupdated]
    constructor
    · intro hcarries
      obtain ⟨row, hrow, hcredential, hlive⟩ := hcarries
      rw [hrow]
      exact ⟨_, rfl, hcredential, hlive⟩
    · intro hcarries
      obtain ⟨row, hrow, hcredential, hlive⟩ := hcarries
      obtain ⟨old, hold, hmade⟩ := Option.map_eq_some_iff.mp hrow
      subst hmade
      exact ⟨old, hold, hcredential, hlive⟩
  · have hkept : applyAll (DynamoIdentity.passkeySignInWrites challengeId passkey session now)
        table (.passkey accountId passkeyId) = table (.passkey accountId passkeyId) := by
      apply applyAll_of_not_mem
      simp only [DynamoIdentity.passkeySignInWrites, Write.update, DynamoIdentity.sessionPut,
        Write.putNew, Write.putIf, DynamoIdentity.updateAccount, List.map_cons, List.map_nil,
        List.mem_cons, reduceCtorEq, IdentityKey.passkey.injEq, List.not_mem_nil, or_false, false_or]
      exact hsame
    rw [hkept]

/-- A revocation takes the lookup away together with its passkey. -/
theorem PasskeysConsistent.revoke (hconsistent : PasskeysConsistent lookupDigest table)
    (hdigest : Function.Injective lookupDigest) {accountId : AccountId} {passkeyId : Uuid}
    {passkey : PasskeyCredential} {revokedAt : Time}
    (hholds : ∀ write ∈ DynamoIdentity.revokePasskeyWrites lookupDigest accountId passkeyId passkey
      revokedAt, write.Holds table) :
    PasskeysConsistent lookupDigest (applyAll (DynamoIdentity.revokePasskeyWrites lookupDigest
      accountId passkeyId passkey revokedAt) table) := by
  have hkeys : ((DynamoIdentity.revokePasskeyWrites lookupDigest accountId passkeyId passkey
      revokedAt).map Write.key).Nodup := by
    simp [DynamoIdentity.revokePasskeyWrites, Write.update, Write.delete]
  -- The condition finds the passkey unrevoked and with the credential read before.
  obtain ⟨row, hrow, hlive, hcredential⟩ : ∃ row, table (.passkey accountId passkeyId) = some row ∧
      row.revokedAt = none ∧ row.credentialId = passkey.credentialId := by
    have hcondition := hholds _ List.mem_cons_self
    change (table (.passkey accountId passkeyId)).any _ = true at hcondition
    obtain ⟨row, hrow, hvalid⟩ := (Option.any_eq_true ..).mp hcondition
    simp only [Bool.and_eq_true, Option.isNone_iff_eq_none, decide_eq_true_eq] at hvalid
    exact ⟨row, hrow, hvalid.1, hvalid.2⟩
  have hlookup : table (.credential (lookupDigest passkey.credentialId)) =
      some ⟨accountId, passkeyId⟩ :=
    (hconsistent _ _ _).mpr ⟨row, hrow, hcredential, hlive⟩
  have hgone : applyAll (DynamoIdentity.revokePasskeyWrites lookupDigest accountId passkeyId passkey
      revokedAt) table (.credential (lookupDigest passkey.credentialId)) = none := by
    have hmem : Write.delete (.credential (lookupDigest passkey.credentialId)) ∈
        DynamoIdentity.revokePasskeyWrites lookupDigest accountId passkeyId passkey revokedAt :=
      List.mem_cons_of_mem _ List.mem_cons_self
    exact applyAll_of_mem hkeys hmem table
  have hrevoked : applyAll (DynamoIdentity.revokePasskeyWrites lookupDigest accountId passkeyId
      passkey revokedAt) table (.passkey accountId passkeyId) =
        some { row with revokedAt := some revokedAt } := by
    have hmem : Write.update (.passkey accountId passkeyId)
        (fun row : PasskeyCredential =>
          row.revokedAt.isNone && row.credentialId = passkey.credentialId)
        (fun row => { row with revokedAt := some revokedAt }) ∈
          DynamoIdentity.revokePasskeyWrites lookupDigest accountId passkeyId passkey revokedAt :=
      List.mem_cons_self
    have hupdated := applyAll_of_mem hkeys hmem table
    change _ = (table (.passkey accountId passkeyId)).map _ at hupdated
    rw [hrow] at hupdated
    exact hupdated
  intro credentialId owner id
  have hotherPasskey : ¬ (owner = accountId ∧ id = passkeyId) →
      applyAll (DynamoIdentity.revokePasskeyWrites lookupDigest accountId passkeyId passkey
        revokedAt) table (.passkey owner id) = table (.passkey owner id) := by
    intro hne
    apply applyAll_of_not_mem
    simpa [DynamoIdentity.revokePasskeyWrites, Write.update, Write.delete] using hne
  by_cases hcredentialId : credentialId = passkey.credentialId
  · subst hcredentialId
    rw [hgone]
    constructor
    · intro hsome
      cases hsome
    · intro hcarries
      obtain ⟨other, hother, hsameCredential, hotherLive⟩ := hcarries
      by_cases hsame : owner = accountId ∧ id = passkeyId
      · obtain ⟨howner, hid⟩ := hsame
        subst howner hid
        rw [hrevoked, Option.some.injEq] at hother
        subst hother
        cases hotherLive
      · rw [hotherPasskey hsame] at hother
        have hfound := (hconsistent _ _ _).mpr ⟨other, hother, hsameCredential, hotherLive⟩
        rw [hlookup, Option.some.injEq] at hfound
        cases hfound
        exact absurd ⟨rfl, rfl⟩ hsame
  · have hkept : applyAll (DynamoIdentity.revokePasskeyWrites lookupDigest accountId passkeyId
        passkey revokedAt) table (.credential (lookupDigest credentialId)) =
          table (.credential (lookupDigest credentialId)) := by
      apply applyAll_of_not_mem
      have hne : lookupDigest credentialId ≠ lookupDigest passkey.credentialId :=
        fun hsame => hcredentialId (hdigest hsame)
      simpa [DynamoIdentity.revokePasskeyWrites, Write.update, Write.delete] using hne
    rw [hkept, hconsistent]
    unfold Carries
    by_cases hsame : owner = accountId ∧ id = passkeyId
    · obtain ⟨howner, hid⟩ := hsame
      subst howner hid
      rw [hrevoked, hrow]
      constructor
      · intro hcarries
        obtain ⟨other, hother, hsameCredential, _⟩ := hcarries
        rw [Option.some.injEq] at hother
        subst hother
        exact absurd (hsameCredential.symm.trans hcredential) hcredentialId
      · intro hcarries
        obtain ⟨other, hother, _, hotherLive⟩ := hcarries
        rw [Option.some.injEq] at hother
        subst hother
        cases hotherLive
    · rw [hotherPasskey hsame]

end Consistency

/-! ## Challenges -/

/-- The challenge cannot be consumed any more. -/
def Spent (challengeId : ChallengeId) (table : IdentityTable) : Prop :=
  ∀ challenge, table (.challenge challengeId) = some challenge → challenge.consumedAt ≠ none

section Steps

variable {lookupDigest : String → String} {table after : IdentityTable} {r : IdentityRequest}

/-- A call writes a challenge only to consume it. -/
theorem consumes_of_key (hrequest : PasskeyRequest lookupDigest r) {write : IdentityWrite}
    (hmem : write ∈ r.writes) {challengeId : ChallengeId}
    (hkey : write.key = .challenge challengeId) :
    ∃ (condition : AuthChallenge → Bool) (now : Time),
      write = .update (.challenge challengeId) condition
        (fun challenge => { challenge with consumedAt := some now }) ∧
      ∀ challenge, condition challenge = true → challenge.consumedAt = none := by
  cases hrequest with
  | read _ hread =>
      rw [hread] at hmem
      cases hmem
  | created passkey hnew =>
      change write ∈ [_, _, _] at hmem
      simp only [List.mem_cons, List.not_mem_nil, or_false] at hmem
      obtain hwrite | hwrite | hwrite := hmem
      · subst hwrite
        cases hkey
      · subst hwrite
        cases hkey
      · subst hwrite
        cases hkey
  | registered id passkey now hnew =>
      change write ∈ [_, _, _, _] at hmem
      simp only [List.mem_cons, List.not_mem_nil, or_false] at hmem
      obtain hwrite | hwrite | hwrite | hwrite := hmem
      · subst hwrite
        cases hkey
        refine ⟨_, now, rfl, ?_⟩
        intro challenge hcondition
        simp only [Bool.and_eq_true, Option.isNone_iff_eq_none] at hcondition
        exact hcondition.1.2
      · subst hwrite
        cases hkey
      · subst hwrite
        cases hkey
      · subst hwrite
        cases hkey
  | signedIn id passkey session now haccount =>
      change write ∈ [_, _, _, _] at hmem
      simp only [List.mem_cons, List.not_mem_nil, or_false] at hmem
      obtain hwrite | hwrite | hwrite | hwrite := hmem
      · subst hwrite
        cases hkey
        refine ⟨_, now, rfl, ?_⟩
        intro challenge hcondition
        simp only [Bool.and_eq_true, Option.isNone_iff_eq_none] at hcondition
        exact hcondition.1.2
      · subst hwrite
        cases hkey
      · subst hwrite
        cases hkey
      · subst hwrite
        cases hkey
  | revoked accountId passkeyId passkey revokedAt =>
      change write ∈ [_, _] at hmem
      simp only [List.mem_cons, List.not_mem_nil, or_false] at hmem
      obtain hwrite | hwrite := hmem
      · subst hwrite
        cases hkey
      · subst hwrite
        cases hkey

/-- A consuming write finds its challenge unconsumed and leaves it spent. -/
theorem spent_of_write (hrequest : PasskeyRequest lookupDigest r)
    (hkeys : (r.writes.map Write.key).Nodup) (hholds : ∀ write ∈ r.writes, write.Holds table)
    {challengeId : ChallengeId} (hkey : .challenge challengeId ∈ r.writes.map Write.key) :
    ¬ Spent challengeId table ∧ Spent challengeId (applyAll r.writes table) := by
  obtain ⟨write, hmem, hwrite⟩ := List.mem_map.mp hkey
  obtain ⟨condition, now, hconsume, hcondition⟩ := consumes_of_key hrequest hmem hwrite
  subst hconsume
  have hfound := hholds _ hmem
  change (table (.challenge challengeId)).any condition = true at hfound
  obtain ⟨challenge, hchallenge, hvalid⟩ := (Option.any_eq_true ..).mp hfound
  constructor
  · intro hspent
    exact hspent challenge hchallenge (hcondition challenge hvalid)
  · intro consumed hconsumed
    have hafter := applyAll_of_mem hkeys hmem table
    change applyAll r.writes table (.challenge challengeId) =
      (table (.challenge challengeId)).map _ at hafter
    rw [hconsumed, hchallenge, Option.map_some, Option.some.injEq] at hafter
    rw [hafter]
    nofun

theorem spent_stays (hrequest : PasskeyRequest lookupDigest r)
    {reply : StoreRequest.Response Fault r} (hserves : Serves table r reply after)
    {challengeId : ChallengeId} (hspent : Spent challengeId table) : Spent challengeId after := by
  cases hserves.effect with
  | inl hsame =>
      rw [hsame]
      exact hspent
  | inr hwritten =>
      obtain ⟨hkeys, hholds, hafter⟩ := hwritten
      rw [hafter]
      by_cases hkey : .challenge challengeId ∈ r.writes.map Write.key
      · exact (spent_of_write hrequest hkeys hholds hkey).2
      · intro challenge hfind
        rw [applyAll_of_not_mem hkey] at hfind
        exact hspent challenge hfind

/-- Every request of a call keeps lookups and passkeys consistent. -/
theorem PasskeysConsistent.served (hconsistent : PasskeysConsistent lookupDigest table)
    (hdigest : Function.Injective lookupDigest) (hrequest : PasskeyRequest lookupDigest r)
    {reply : StoreRequest.Response Fault r} (hserves : Serves table r reply after) :
    PasskeysConsistent lookupDigest after := by
  apply hserves.preserves hconsistent
  intro hkeys hholds
  cases hrequest with
  | read _ hread =>
      rw [hread]
      exact hconsistent
  | created passkey hnew =>
      refine hconsistent.register hdigest hnew hkeys hholds ?_ ?_ ?_
      · exact List.mem_cons_of_mem _ List.mem_cons_self
      · exact List.mem_cons_of_mem _ (List.mem_cons_of_mem _ List.mem_cons_self)
      · intro write hmem hfirst hsecond
        change write ∈ [_, _, _] at hmem
        simp only [List.mem_cons, List.not_mem_nil, or_false] at hmem
        obtain hwrite | hwrite | hwrite := hmem
        · subst hwrite
          exact ⟨fun _ _ hkey => (by cases hkey), fun _ hkey => (by cases hkey)⟩
        · exact absurd hwrite hfirst
        · exact absurd hwrite hsecond
  | registered challengeId passkey now hnew =>
      refine hconsistent.register hdigest hnew hkeys hholds ?_ ?_ ?_
      · exact List.mem_cons_of_mem _ (List.mem_cons_of_mem _ List.mem_cons_self)
      · exact List.mem_cons_of_mem _
          (List.mem_cons_of_mem _ (List.mem_cons_of_mem _ List.mem_cons_self))
      · intro write hmem hfirst hsecond
        change write ∈ [_, _, _, _] at hmem
        simp only [List.mem_cons, List.not_mem_nil, or_false] at hmem
        obtain hwrite | hwrite | hwrite | hwrite := hmem
        · subst hwrite
          exact ⟨fun _ _ hkey => (by cases hkey), fun _ hkey => (by cases hkey)⟩
        · subst hwrite
          exact ⟨fun _ _ hkey => (by cases hkey), fun _ hkey => (by cases hkey)⟩
        · exact absurd hwrite hfirst
        · exact absurd hwrite hsecond
  | signedIn challengeId passkey session now haccount =>
      exact hconsistent.signIn challengeId passkey session now
  | revoked accountId passkeyId passkey revokedAt => exact hconsistent.revoke hdigest hholds

/-- Who creates a session: a sign-in of an active account with a passkey that is
not revoked. -/
theorem signedIn_of_session (hrequest : PasskeyRequest lookupDigest r)
    {reply : StoreRequest.Response Fault r} (hserves : Serves table r reply after)
    {accountId : AccountId} {sessionId : SessionId} {session : AuthSession}
    (hbefore : table (.session accountId sessionId) ≠ some session)
    (hafter : after (.session accountId sessionId) = some session) :
    ∃ challengeId passkey now,
      r = .transact (DynamoIdentity.passkeySignInWrites challengeId passkey session now) ∧
      passkey.accountId = accountId ∧
      (∃ row, table (.passkey accountId passkey.id) = some row ∧ row.revokedAt = none ∧
        row.credentialId = passkey.credentialId) ∧
      ∃ account, table (.profile accountId) = some account ∧ account.status = .active := by
  cases hserves.item (.session accountId sessionId) with
  | inl hsame =>
      rw [hsame] at hafter
      exact absurd hafter hbefore
  | inr hwritten =>
      obtain ⟨write, hmem, hkey, hhold, heffect⟩ := hwritten
      have hall : ∀ write ∈ r.writes, write.Holds table := by
        cases hserves.effect with
        | inl hsame =>
            rw [hsame] at hafter
            exact absurd hafter hbefore
        | inr hcommitted => exact hcommitted.2.1
      cases hrequest with
      | read _ hread =>
          rw [hread] at hmem
          cases hmem
      | created passkey hnew =>
          change write ∈ [_, _, _] at hmem
          simp only [List.mem_cons, List.not_mem_nil, or_false] at hmem
          obtain hwrite | hwrite | hwrite := hmem
          · subst hwrite
            cases hkey
          · subst hwrite
            cases hkey
          · subst hwrite
            cases hkey
      | registered id passkey now hnew =>
          change write ∈ [_, _, _, _] at hmem
          simp only [List.mem_cons, List.not_mem_nil, or_false] at hmem
          obtain hwrite | hwrite | hwrite | hwrite := hmem
          · subst hwrite
            cases hkey
          · subst hwrite
            cases hkey
          · subst hwrite
            cases hkey
          · subst hwrite
            cases hkey
      | signedIn id passkey newSession now haccount =>
          have hpasskey := hall _ (List.mem_cons_of_mem _ List.mem_cons_self)
          have hprofile := hall (DynamoIdentity.updateAccount passkey.accountId now)
            (List.mem_cons_of_mem _
              (List.mem_cons_of_mem _ (List.mem_cons_of_mem _ List.mem_cons_self)))
          change write ∈ [_, _, _, _] at hmem
          simp only [List.mem_cons, List.not_mem_nil, or_false] at hmem
          obtain hwrite | hwrite | hwrite | hwrite := hmem
          · subst hwrite
            cases hkey
          · subst hwrite
            cases hkey
          · subst hwrite
            cases hkey
            rw [hafter] at heffect
            have hsession : session = newSession := Option.some.inj heffect
            subst hsession
            refine ⟨id, passkey, now, rfl, haccount, ?_, ?_⟩
            · change (table (.passkey passkey.accountId passkey.id)).any _ = true at hpasskey
              obtain ⟨row, hrow, hvalid⟩ := (Option.any_eq_true ..).mp hpasskey
              simp only [Bool.and_eq_true, Option.isNone_iff_eq_none, decide_eq_true_eq] at hvalid
              rw [haccount] at hrow
              exact ⟨row, hrow, hvalid.1, hvalid.2⟩
            · change (table (.profile passkey.accountId)).any _ = true at hprofile
              obtain ⟨account, haccountRow, hactive⟩ := (Option.any_eq_true ..).mp hprofile
              rw [haccount] at haccountRow
              exact ⟨account, haccountRow, by simpa using hactive⟩
          · subst hwrite
            cases hkey
      | revoked owner passkeyId passkey revokedAt =>
          change write ∈ [_, _] at hmem
          simp only [List.mem_cons, List.not_mem_nil, or_false] at hmem
          obtain hwrite | hwrite := hmem
          · subst hwrite
            cases hkey
          · subst hwrite
            cases hkey

end Steps

/-! ## What an answer says about the process -/

/-- The call reported success. -/
def PasskeyCall.Succeeded : (call : PasskeyCall) → call.Result → Prop
  | .createPasskey _, _ => True
  | .completePasskeyRegistration .., value => value = true
  | .completePasskeySignIn .., value => value.isSome
  | .revokePasskey .., value => value = true

/-- The call reported `Ok(false)` or `Ok(None)`. -/
def PasskeyCall.Refused : (call : PasskeyCall) → call.Result → Prop
  | .createPasskey _, _ => False
  | .completePasskeyRegistration .., value => value = false
  | .completePasskeySignIn .., value => value = none
  | .revokePasskey .., value => value = false

/-- A transaction that is sent until it is decided: it was committed, or the
call is refused and everything was canceled. -/
theorem replays_transactRefusable {α : Type} {writes : List IdentityWrite}
    {committed : TableProgram α} {refused : α} {conflicted : String} {attempts : ℕ}
    {answers : List IdentityAnswer} {value : α}
    (hreplays : (DynamoIdentity.transactRefusable writes committed refused conflicted
      attempts).Replays answers (.done value)) :
    (∃ rest, (⟨.transact writes, .committed⟩ : IdentityAnswer) ∈ answers ∧
      committed.Replays rest (.done value)) ∨
    (value = refused ∧ ∀ answer ∈ answers, Harmless answer) := by
  induction attempts generalizing answers with
  | zero => exact hreplays.of_fault.elim
  | succ attempts ih =>
      obtain ⟨outcome, rest, hanswers, hrest⟩ := Program.Replays.of_request hreplays
      subst hanswers
      cases outcome with
      | committed => exact .inl ⟨rest, List.mem_cons_self, hrest⟩
      | failed cause => exact hrest.of_fault.elim
      | canceled reasons =>
          have hhead : Harmless ⟨.transact writes, .canceled reasons⟩ := .inr ⟨writes, reasons, rfl⟩
          dsimp only at hrest
          split_ifs at hrest
          · obtain ⟨hnil, hvalue⟩ := hrest.of_done
            right
            refine ⟨hvalue.symm, ?_⟩
            intro answer hmem
            rw [hnil, List.mem_singleton] at hmem
            rw [hmem]
            exact hhead
          · cases ih hrest with
            | inl hcommitted =>
                obtain ⟨last, hmem, hlast⟩ := hcommitted
                exact .inl ⟨last, List.mem_cons_of_mem _ hmem, hlast⟩
            | inr hrefused =>
                right
                refine ⟨hrefused.1, ?_⟩
                intro answer hmem
                rw [List.mem_cons] at hmem
                cases hmem with
                | inl hfirst =>
                    rw [hfirst]
                    exact hhead
                | inr hlater => exact hrefused.2 answer hlater

theorem replays_revokePasskey {lookupDigest : String → String} {accountId : AccountId}
    {passkeyId : Uuid} {revokedAt : Time} {attempts : ℕ} {answers : List IdentityAnswer}
    (hreplays : (DynamoIdentity.revokePasskeyAttempts lookupDigest accountId passkeyId revokedAt
      attempts).Replays answers (.done false)) : ∀ answer ∈ answers, Harmless answer := by
  induction attempts generalizing answers with
  | zero => exact hreplays.of_fault.elim
  | succ attempts ih =>
      obtain ⟨reply, afterRead, hanswers, hread⟩ := Program.Replays.of_request hreplays
      subst hanswers
      have hall : (∀ answer ∈ afterRead, Harmless answer) →
          ∀ answer ∈ (⟨.get (.passkey accountId passkeyId), reply⟩ : IdentityAnswer) :: afterRead,
            Harmless answer := by
        intro hrest answer hmem
        rw [List.mem_cons] at hmem
        cases hmem with
        | inl hfirst =>
            rw [hfirst]
            exact .inl rfl
        | inr hlater => exact hrest answer hlater
      apply hall
      cases reply with
      | error cause => exact hread.of_fault.elim
      | ok found =>
          cases found with
          | none =>
              obtain ⟨hnil, _⟩ := hread.of_done
              rw [hnil]
              intro answer hmem
              cases hmem
          | some passkey =>
              change (if passkey.revokedAt.isSome then _ else _ : TableProgram Bool).Replays _ _
                at hread
              split_ifs at hread
              · obtain ⟨hnil, _⟩ := hread.of_done
                rw [hnil]
                intro answer hmem
                cases hmem
              · obtain ⟨outcome, rest, hsplit, hrest⟩ := Program.Replays.of_request hread
                subst hsplit
                cases outcome with
                | committed =>
                    obtain ⟨_, hvalue⟩ := hrest.of_done
                    cases hvalue
                | failed cause => exact hrest.of_fault.elim
                | canceled reasons =>
                    intro answer hmem
                    rw [List.mem_cons] at hmem
                    cases hmem with
                    | inl hfirst =>
                        rw [hfirst]
                        exact .inr ⟨_, reasons, rfl⟩
                    | inr hlater =>
                        dsimp only at hrest
                        split_ifs at hrest
                        · obtain ⟨hnil, _⟩ := hrest.of_done
                          rw [hnil] at hlater
                          cases hlater
                        · exact ih hrest answer hlater

/-- A sign-in that was committed returns the session. -/
theorem not_none_of_signedIn {passkey : PasskeyCredential} {session : AuthSession} {now : Time}
    {answers : List IdentityAnswer}
    (hreplays : (DynamoIdentity.accountById passkey.accountId >>= fun found =>
      (match found with
        | none => .fault (.bail "passkey account disappeared after successful authentication")
        | some account =>
            pure (some ⟨account, session, { passkey with lastUsedAt := some now }⟩) :
          TableProgram (Option CompletedPasskeySignIn))).Replays answers (.done none)) : False := by
  obtain ⟨reply, rest, _, hrest⟩ := Program.Replays.of_request hreplays
  cases reply with
  | error cause => exact hrest.of_fault.elim
  | ok found =>
      cases found with
      | none => exact hrest.of_fault.elim
      | some account =>
          obtain ⟨_, hvalue⟩ := hrest.of_done
          cases hvalue

/-- A successful ceremony has committed a transaction that consumes its
challenge. -/
theorem replays_succeeded {lookupDigest : String → String} {call : PasskeyCall}
    {challengeId : ChallengeId} (hchallenge : call.challenge? = some challengeId)
    {answers : List IdentityAnswer} {value : call.Result} (hsucceeded : call.Succeeded value)
    (hreplays : (call.program lookupDigest).Replays answers (.done value)) :
    ∃ writes, (⟨.transact writes, .committed⟩ : IdentityAnswer) ∈ answers ∧
      .challenge challengeId ∈ writes.map Write.key := by
  cases call with
  | createPasskey passkey => cases hchallenge
  | completePasskeyRegistration id passkey now =>
      cases hchallenge
      cases replays_transactRefusable hreplays with
      | inl hcommitted =>
          obtain ⟨rest, hmem, _⟩ := hcommitted
          exact ⟨_, hmem, List.mem_cons_self⟩
      | inr hrefused =>
          have htrue : value = true := hsucceeded
          rw [htrue] at hrefused
          cases hrefused.1
  | completePasskeySignIn id passkey session now =>
      cases hchallenge
      change (DynamoIdentity.completePasskeySignIn _ _ _ _).Replays _ _ at hreplays
      unfold DynamoIdentity.completePasskeySignIn at hreplays
      split_ifs at hreplays
      · exact hreplays.of_fault.elim
      · cases replays_transactRefusable hreplays with
        | inl hcommitted =>
            obtain ⟨rest, hmem, _⟩ := hcommitted
            exact ⟨_, hmem, List.mem_cons_self⟩
        | inr hrefused =>
            have hsome : value.isSome = true := hsucceeded
            rw [hrefused.1] at hsome
            cases hsome
  | revokePasskey accountId passkeyId revokedAt => cases hchallenge

/-- A refused call has only read and had its transactions canceled. -/
theorem replays_refused {lookupDigest : String → String} {call : PasskeyCall}
    {answers : List IdentityAnswer} {value : call.Result} (hrefused : call.Refused value)
    (hreplays : (call.program lookupDigest).Replays answers (.done value)) :
    ∀ answer ∈ answers, Harmless answer := by
  cases call with
  | createPasskey passkey => exact hrefused.elim
  | completePasskeyRegistration id passkey now =>
      have hfalse : value = false := hrefused
      subst hfalse
      cases replays_transactRefusable hreplays with
      | inl hcommitted =>
          obtain ⟨rest, _, hrest⟩ := hcommitted
          obtain ⟨_, hvalue⟩ := hrest.of_done
          cases hvalue
      | inr hharmless => exact hharmless.2
  | completePasskeySignIn id passkey session now =>
      have hnone : value = none := hrefused
      subst hnone
      change (DynamoIdentity.completePasskeySignIn _ _ _ _).Replays _ _ at hreplays
      unfold DynamoIdentity.completePasskeySignIn at hreplays
      split_ifs at hreplays
      · exact hreplays.of_fault.elim
      · cases replays_transactRefusable hreplays with
        | inl hcommitted =>
            obtain ⟨rest, _, hrest⟩ := hcommitted
            exact (not_none_of_signedIn hrest).elim
        | inr hharmless => exact hharmless.2
  | revokePasskey accountId passkeyId revokedAt =>
      have hfalse : value = false := hrefused
      subst hfalse
      exact replays_revokePasskey hreplays

/-! ## Runs -/

section Runs

variable {lookupDigest : String → String} {table : IdentityTable}
  {before after final : Configuration PasskeyCall IdentityRequest (StoreRequest.Response Fault)
    Fault PasskeyCall.Result IdentityTable}
  {labels : List (Label PasskeyCall IdentityRequest (StoreRequest.Response Fault) Fault)}

theorem request_of_process
    (hrun : Run (passkeySystem lookupDigest).Step (.idle table) labels before) {pid : ℕ}
    {call : PasskeyCall} {r : IdentityRequest}
    {next : StoreRequest.Response Fault r → TableProgram call.Result}
    (hprocess : before.process pid = some ⟨call, .request r next⟩) :
    PasskeyRequest lookupDigest r := by
  have hstart := System.start_mem_of_process hrun hprocess
  have hreplayed := System.replays_of_run hrun hprocess
  obtain ⟨front, back, hsplit⟩ := List.append_of_mem hstart
  rw [hsplit] at hrun
  obtain ⟨_, _, _, hstep, _⟩ := run_append.mp hrun
  have hproper : call.Proper := by
    cases hstep with
    | start pid call hfree hadmits => exact hadmits
  cases hreplayed with
  | inl hfault =>
      obtain ⟨cause, hfault⟩ := hfault
      cases hfault
  | inr hreplays => exact hreplays.issues (issues_passkeyCall hproper)

/-- A committed transaction of the process consumes the challenge. -/
def Consumed (labels : List (Label PasskeyCall IdentityRequest (StoreRequest.Response Fault) Fault))
    (challengeId : ChallengeId) (pid : ℕ) : Prop :=
  ∃ writes, .ask pid (.transact writes) .committed ∈ labels ∧
    .challenge challengeId ∈ writes.map Write.key

/-- What holds after any run. -/
structure PasskeyInvariant (lookupDigest : String → String)
    (labels : List (Label PasskeyCall IdentityRequest (StoreRequest.Response Fault) Fault))
    (table : IdentityTable) : Prop where
  consistent : PasskeysConsistent lookupDigest table
  spent : ∀ challengeId pid, Consumed labels challengeId pid → Spent challengeId table
  once : ∀ challengeId pid other, Consumed labels challengeId pid →
    Consumed labels challengeId other → other = pid

/-- The label of a step consumes no challenge unless it is a committed
transaction. -/
theorem consumed_append {challengeId : ChallengeId} {pid : ℕ}
    {label : Label PasskeyCall IdentityRequest (StoreRequest.Response Fault) Fault}
    (hconsumed : Consumed (labels ++ [label]) challengeId pid) :
    Consumed labels challengeId pid ∨ ∃ writes, label = .ask pid (.transact writes) .committed ∧
      .challenge challengeId ∈ writes.map Write.key := by
  obtain ⟨writes, hmem, hkey⟩ := hconsumed
  rw [List.mem_append, List.mem_singleton] at hmem
  cases hmem with
  | inl hpast => exact .inl ⟨writes, hpast, hkey⟩
  | inr hlast => exact .inr ⟨writes, hlast.symm, hkey⟩

theorem PasskeyInvariant.unchanged (hinvariant : PasskeyInvariant lookupDigest labels table)
    {later : IdentityTable}
    {label : Label PasskeyCall IdentityRequest (StoreRequest.Response Fault) Fault}
    (hlabel : ∀ pid writes, label ≠ .ask pid (.transact writes) .committed)
    (hconsistent : PasskeysConsistent lookupDigest later)
    (hspent : ∀ challengeId, Spent challengeId table → Spent challengeId later) :
    PasskeyInvariant lookupDigest (labels ++ [label]) later := by
  have hpast : ∀ challengeId pid, Consumed (labels ++ [label]) challengeId pid →
      Consumed labels challengeId pid := by
    intro challengeId pid hconsumed
    cases consumed_append hconsumed with
    | inl hpast => exact hpast
    | inr hlast =>
        obtain ⟨writes, hsame, _⟩ := hlast
        exact absurd hsame (hlabel pid writes)
  constructor
  · exact hconsistent
  · intro challengeId pid hconsumed
    exact hspent challengeId (hinvariant.spent challengeId pid (hpast challengeId pid hconsumed))
  · intro challengeId pid other hfirst hsecond
    exact hinvariant.once challengeId pid other (hpast _ _ hfirst) (hpast _ _ hsecond)

theorem PasskeyInvariant.step (hdigest : Function.Injective lookupDigest)
    (hrun : Run (passkeySystem lookupDigest).Step (.idle table) labels before)
    (hinvariant : PasskeyInvariant lookupDigest labels before.store)
    {label : Label PasskeyCall IdentityRequest (StoreRequest.Response Fault) Fault}
    (hstep : (passkeySystem lookupDigest).Step before label after) :
    PasskeyInvariant lookupDigest (labels ++ [label]) after.store := by
  cases hstep with
  | start pid call hfree hadmits =>
      exact hinvariant.unchanged (fun _ _ => nofun) hinvariant.consistent fun _ hspent => hspent
  | halt pid call r next cause store hprocess hhalts =>
      have hsame : store = before.store := hhalts
      rw [hsame]
      exact hinvariant.unchanged (fun _ _ => nofun) hinvariant.consistent fun _ hspent => hspent
  | environment store hmoves =>
      refine hinvariant.unchanged (fun _ _ => nofun) ?_ ?_
      · intro credentialId accountId passkeyId
        unfold Carries
        dsimp only
        rw [hmoves.credentials, hmoves.passkeys]
        exact hinvariant.consistent credentialId accountId passkeyId
      · intro challengeId hspent challenge hfind
        dsimp only at hfind
        cases hmoves.challenges challengeId with
        | inl hsame =>
            rw [hsame] at hfind
            exact hspent challenge hfind
        | inr hgone =>
            rw [hgone] at hfind
            cases hfind
  | ask pid call r next reply store hprocess hanswers =>
      have hrequest := request_of_process hrun hprocess
      have hserves : Serves before.store r reply store := hanswers
      have hconsistent := hinvariant.consistent.served hdigest hrequest hserves
      have hstays : ∀ challengeId, Spent challengeId before.store → Spent challengeId store :=
        fun _ hspent => spent_stays hrequest hserves hspent
      by_cases hcommitted : ∃ asker writes, (.ask pid r reply :
          Label PasskeyCall IdentityRequest (StoreRequest.Response Fault) Fault) =
            .ask asker (.transact writes) .committed
      · obtain ⟨asker, writes, hlabel⟩ := hcommitted
        cases hlabel
        have hnew : ∀ challengeId, .challenge challengeId ∈ writes.map Write.key →
            ¬ Spent challengeId before.store ∧ Spent challengeId store := by
          intro challengeId hkey
          cases hserves with
          | committed writes hkeys hholds => exact spent_of_write hrequest hkeys hholds hkey
        have hunspent : ∀ challengeId other, .challenge challengeId ∈ writes.map Write.key →
            ¬ Consumed labels challengeId other := by
          intro challengeId other hkey hconsumed
          exact (hnew challengeId hkey).1 (hinvariant.spent challengeId other hconsumed)
        constructor
        · exact hconsistent
        · intro challengeId other hconsumed
          cases consumed_append hconsumed with
          | inl hpast => exact hstays challengeId (hinvariant.spent challengeId other hpast)
          | inr hlast =>
              obtain ⟨_, hsame, hkey⟩ := hlast
              cases hsame
              exact (hnew challengeId hkey).2
        · intro challengeId first second hfirst hsecond
          cases consumed_append hfirst with
          | inl hpast =>
              cases consumed_append hsecond with
              | inl hother => exact hinvariant.once challengeId first second hpast hother
              | inr hlast =>
                  obtain ⟨_, hsame, hkey⟩ := hlast
                  cases hsame
                  exact absurd hpast (hunspent challengeId first hkey)
          | inr hlast =>
              obtain ⟨_, hsame, hkey⟩ := hlast
              cases hsame
              cases consumed_append hsecond with
              | inl hother => exact absurd hother (hunspent challengeId second hkey)
              | inr hother =>
                  obtain ⟨_, hsameOther, _⟩ := hother
                  cases hsameOther
                  rfl
      · exact hinvariant.unchanged (fun asker writes hlabel => hcommitted ⟨asker, writes, hlabel⟩)
          hconsistent hstays

theorem passkeyInvariant_of_run (hdigest : Function.Injective lookupDigest)
    (hconsistent : PasskeysConsistent lookupDigest table)
    (hrun : Run (passkeySystem lookupDigest).Step (.idle table) labels final) :
    PasskeyInvariant lookupDigest labels final.store := by
  have hall := Run.invariant
    (I := fun past (state : Configuration PasskeyCall IdentityRequest (StoreRequest.Response Fault)
        Fault PasskeyCall.Result IdentityTable) =>
      Run (passkeySystem lookupDigest).Step (.idle table) past state ∧
        PasskeyInvariant lookupDigest past state.store) ?_ ?_ hrun
  · exact hall.2
  · refine ⟨run_nil.mpr rfl, hconsistent, ?_, ?_⟩
    · intro challengeId pid hconsumed
      obtain ⟨_, hmem, _⟩ := hconsumed
      cases hmem
    · intro challengeId pid other hconsumed
      obtain ⟨_, hmem, _⟩ := hconsumed
      cases hmem
  · intro past before label after hpast hstep
    exact ⟨run_append.mpr ⟨before, hpast.1, run_singleton.mpr hstep⟩,
      hpast.2.step hdigest hpast.1 hstep⟩

/-- A successful ceremony in a run consumed its challenge. -/
theorem consumed_of_succeeded
    (hrun : Run (passkeySystem lookupDigest).Step (.idle table) labels final) {pid : ℕ}
    {call : PasskeyCall} {value : call.Result} {challengeId : ChallengeId}
    (hdone : final.process pid = some ⟨call, .done value⟩)
    (hchallenge : call.challenge? = some challengeId) (hsucceeded : call.Succeeded value) :
    Consumed labels challengeId pid := by
  cases System.replays_of_run hrun hdone with
  | inl hfault =>
      obtain ⟨cause, hfault⟩ := hfault
      cases hfault
  | inr hreplays =>
      obtain ⟨writes, hmem, hkey⟩ := replays_succeeded hchallenge hsucceeded hreplays
      exact ⟨writes, mem_answersOf.mp hmem, hkey⟩

/-- No step of a call that is refused in the end changes the table. -/
theorem unchanged_of_refused {past rest :
      List (Label PasskeyCall IdentityRequest (StoreRequest.Response Fault) Fault)}
    (hpast : Run (passkeySystem lookupDigest).Step (.idle table) past before) {pid : ℕ}
    {r : IdentityRequest} {reply : StoreRequest.Response Fault r}
    (hstep : (passkeySystem lookupDigest).Step before (.ask pid r reply) after)
    (hrest : Run (passkeySystem lookupDigest).Step after rest final) {call : PasskeyCall}
    {value : call.Result} (hdone : final.process pid = some ⟨call, .done value⟩)
    (hrefused : call.Refused value) : after.store = before.store := by
  have hrun : Run (passkeySystem lookupDigest).Step (.idle table)
      (past ++ .ask pid r reply :: rest) final :=
    run_append.mpr ⟨before, hpast, run_cons.mpr ⟨after, hstep, hrest⟩⟩
  have hmem : (⟨r, reply⟩ : IdentityAnswer) ∈ answersOf pid (past ++ .ask pid r reply :: rest) := by
    apply mem_answersOf.mpr
    simp
  have hharmless : Harmless ⟨r, reply⟩ := by
    cases System.replays_of_run hrun hdone with
    | inl hfault =>
        obtain ⟨cause, hfault⟩ := hfault
        cases hfault
    | inr hreplays => exact replays_refused hrefused hreplays _ hmem
  cases hstep with
  | ask pid call r next reply store hprocess hanswers =>
      exact unchanged_of_harmless hanswers hharmless

end Runs

/-! ## Uniqueness and single use -/

/-- Passkeys on DynamoDB: a lookup is there exactly while exactly one unrevoked
passkey carries the credential, and names it; a challenge serves one ceremony;
a sign-in creates a session only for an active account with an unrevoked
passkey; and a refused call has changed nothing. -/
theorem dynamo_passkeys (lookupDigest : String → String)
    (hdigest : Function.Injective lookupDigest) (table : IdentityTable)
    (hconsistent : PasskeysConsistent lookupDigest table) :
    (∀ labels final, Run (passkeySystem lookupDigest).Step (.idle table) labels final →
      ∀ credentialId,
        ((∃ lookup, final.store (.credential (lookupDigest credentialId)) = some lookup) ↔
          ∃! named : AccountId × Uuid, Carries final.store credentialId named.1 named.2) ∧
        ∀ lookup, final.store (.credential (lookupDigest credentialId)) = some lookup →
          Carries final.store credentialId lookup.accountId lookup.passkeyId) ∧
    (∀ labels final, Run (passkeySystem lookupDigest).Step (.idle table) labels final →
      ∀ challengeId pid other (call otherCall : PasskeyCall) value otherValue,
        final.process pid = some ⟨call, .done value⟩ →
        final.process other = some ⟨otherCall, .done otherValue⟩ →
        call.challenge? = some challengeId → otherCall.challenge? = some challengeId →
        call.Succeeded value → otherCall.Succeeded otherValue → other = pid) ∧
    (∀ past before pid r reply after,
      Run (passkeySystem lookupDigest).Step (.idle table) past before →
      (passkeySystem lookupDigest).Step before (.ask pid r reply) after →
      ∀ accountId sessionId session,
        before.store (.session accountId sessionId) ≠ some session →
        after.store (.session accountId sessionId) = some session →
        ∃ challengeId passkey now,
          r = .transact (DynamoIdentity.passkeySignInWrites challengeId passkey session now) ∧
          passkey.accountId = accountId ∧
          (∃ row, before.store (.passkey accountId passkey.id) = some row ∧
            row.revokedAt = none ∧ row.credentialId = passkey.credentialId) ∧
          ∃ account, before.store (.profile accountId) = some account ∧
            account.status = .active) ∧
    ∀ past before pid r reply after rest final,
      Run (passkeySystem lookupDigest).Step (.idle table) past before →
      (passkeySystem lookupDigest).Step before (.ask pid r reply) after →
      Run (passkeySystem lookupDigest).Step after rest final →
      ∀ (call : PasskeyCall) value, final.process pid = some ⟨call, .done value⟩ →
        call.Refused value → after.store = before.store := by
  refine ⟨?_, ?_, ?_, ?_⟩
  · intro labels final hrun credentialId
    have hfinal := (passkeyInvariant_of_run hdigest hconsistent hrun).consistent
    refine ⟨⟨?_, ?_⟩, ?_⟩
    · intro hlookup
      obtain ⟨lookup, hlookup⟩ := hlookup
      refine ⟨(lookup.accountId, lookup.passkeyId), (hfinal _ _ _).mp hlookup, ?_⟩
      intro other hother
      have hsame := (hfinal _ _ _).mpr hother
      rw [hlookup, Option.some.injEq] at hsame
      rw [hsame]
    · intro hunique
      obtain ⟨named, hcarries, _⟩ := hunique
      exact ⟨_, (hfinal _ _ _).mpr hcarries⟩
    · intro lookup hlookup
      exact (hfinal _ _ _).mp hlookup
  · intro labels final hrun challengeId pid other call otherCall value otherValue hdone hotherDone
      hchallenge hotherChallenge hsucceeded hotherSucceeded
    exact (passkeyInvariant_of_run hdigest hconsistent hrun).once challengeId pid other
      (consumed_of_succeeded hrun hdone hchallenge hsucceeded)
      (consumed_of_succeeded hrun hotherDone hotherChallenge hotherSucceeded)
  · intro past before pid r reply after hpast hstep accountId sessionId session hbefore hafter
    cases hstep with
    | ask pid call r next reply store hprocess hanswers =>
        exact signedIn_of_session (request_of_process hpast hprocess) hanswers hbefore hafter
  · intro past before pid r reply after rest final hpast hstep hrest call value hdone hrefused
    exact unchanged_of_refused hpast hstep hrest hdone hrefused

/-- An account that has asked to register a passkey and to sign in with it. -/
def invitedTable : IdentityTable := fun
  | .profile accountId =>
      if accountId = 1 then some ⟨1, "a@b.c", "a@b.c", 0, "handle", .active, 0, 0, 0⟩ else none
  | .challenge challengeId =>
      if challengeId = 2 then
        some ⟨2, .passkeyRegistration, some 1, none, none, none, some "state", 0, 0, 100, none⟩
      else if challengeId = 3 then
        some ⟨3, .passkeyAuthentication, none, none, none, none, some "state", 0, 0, 100, none⟩
      else none
  | _ => none

def laptopPasskey : PasskeyCredential := ⟨4, "laptop", 1, "json", "Laptop", 5, none, none⟩

def laptopSession : AuthSession where
  id := 5
  tokenDigest := "token"
  accountId := 1
  kind := .browser
  csrfDigest := none
  apiKeyId := none
  createdAt := 6
  lastSeenAt := 6
  expiresAt := 50
  absoluteExpiresAt := 100
  revokedAt := none

abbrev registerLaptop : PasskeyCall := .completePasskeyRegistration 2 laptopPasskey 5

abbrev laptopSignIn : PasskeyCall := .completePasskeySignIn 3 laptopPasskey laptopSession 6

def registered : IdentityTable × Except Fault Bool :=
  (registerLaptop.program id).exec (answerUndisturbed (.bail "canceled")) invitedTable

def passkeySignedIn : IdentityTable × Except Fault (Option CompletedPasskeySignIn) :=
  (laptopSignIn.program id).exec (answerUndisturbed (.bail "canceled")) registered.1

/-- A run with a registration and a sign-in. -/
theorem dynamo_passkeys_laptop :
    ∃ labels final completed,
      Run (passkeySystem id).Step (.idle invitedTable) labels final ∧
      final.process 0 = some ⟨registerLaptop, .done true⟩ ∧
      final.process 1 = some ⟨laptopSignIn, .done (some completed)⟩ ∧
      (∃ session, final.store (.session 1 5) = some session) ∧
      (∃! named : AccountId × Uuid, Carries final.store "laptop" named.1 named.2) ∧
      ∀ other (otherCall : PasskeyCall) otherValue,
        final.process other = some ⟨otherCall, .done otherValue⟩ →
        otherCall.challenge? = some 3 → otherCall.Succeeded otherValue → other = 1 := by
  have hconsistent : PasskeysConsistent id invitedTable := by
    intro credential accountId passkeyId
    constructor
    · intro hsome
      cases hsome
    · intro hcarries
      obtain ⟨passkey, hsome, _⟩ := hcarries
      cases hsome
  have hanswer : ∀ pid store r after reply,
      answerUndisturbed (Fault.bail "canceled") store r = .ok (after, reply) →
        (passkeySystem id).answers pid store r reply after := by
    intro pid store r after reply hanswer
    exact serves_answerUndisturbed hanswer
  have hsignedIn : passkeySignedIn.2.toOption.join.isSome = true := by decide +kernel
  have hsession : (passkeySignedIn.1 (.session 1 5)).isSome = true := by decide +kernel
  have hlookup : (passkeySignedIn.1 (.credential "laptop")).isSome = true := by decide +kernel
  cases hvalue : passkeySignedIn.2 with
  | error cause =>
      rw [hvalue] at hsignedIn
      cases hsignedIn
  | ok found =>
      cases found with
      | none =>
          rw [hvalue] at hsignedIn
          cases hsignedIn
      | some completed =>
          have hregister : ((passkeySystem id).body registerLaptop).exec
              (answerUndisturbed (Fault.bail "canceled")) invitedTable =
                (registered.1, .ok true) := rfl
          have hsignIn : ((passkeySystem id).body laptopSignIn).exec
              (answerUndisturbed (Fault.bail "canceled")) registered.1 =
                (passkeySignedIn.1, .ok (some completed)) := by
            rw [← hvalue]
            rfl
          have hfree : Function.update (fun _ => none) 0 (some ⟨registerLaptop, .done true⟩) 1 =
              (none : Option ((call : PasskeyCall) × TableProgram call.Result)) := rfl
          have hproper : (passkeySystem id).admits 1 registered.1 laptopSignIn := trivial
          have hfirst : ∃ labels, Run (passkeySystem id).Step (.idle invitedTable)
              (.start 0 registerLaptop :: labels) ⟨registered.1,
                Function.update (fun _ => none) 0 (some ⟨registerLaptop, .done true⟩)⟩ :=
            System.exists_run_of_call (hanswer 0) rfl rfl hregister
          obtain ⟨first, hfirst⟩ := hfirst
          obtain ⟨second, hsecond⟩ :=
            System.exists_run_of_call (hanswer 1) hfree hproper hsignIn
          have hrun := run_append.mpr ⟨_, hfirst, hsecond⟩
          have hlaws := dynamo_passkeys id Function.injective_id _ hconsistent
          refine ⟨_, _, completed, hrun, rfl, rfl, Option.isSome_iff_exists.mp hsession,
            ((hlaws.1 _ _ hrun "laptop").1).mp (Option.isSome_iff_exists.mp hlookup), ?_⟩
          intro other otherCall otherValue hother hchallenge hsucceeded
          exact hlaws.2.1 _ _ hrun 3 1 other laptopSignIn otherCall (some completed) otherValue rfl
            hother rfl hchallenge rfl hsucceeded

end SeizaServer
