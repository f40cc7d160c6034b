import SeizaServer.DynamoPasskeys
import SeizaServer.SqlxEmailChallenges

/-!
# Passkeys on both identity stores

SQLx keeps a passkey in a row under a partial unique index, DynamoDB in an item
beside the lookup of its credential.  Given the same ceremonies, one after
another, the two repositories accept the same ones with the same results,
whatever either has swept in between.
-/

namespace SeizaServer

open Interaction Transition TransactionalStore

/-! ## The SQLx methods -/

namespace IdentityDatabase

variable (db : IdentityDatabase)

/-- Credentials are unique among the passkeys that are not revoked. -/
def insertPasskey (passkey : PasskeyCredential) : Except Fault IdentityDatabase :=
  if (db.accounts.find? passkey.accountId).isNone then
    .error (.database "FOREIGN KEY constraint failed")
  else if passkey.revokedAt.isNone && db.passkeyCredentials.rows.any (fun row =>
      row.credentialId = passkey.credentialId && row.revokedAt.isNone) then
    .error (.database "UNIQUE constraint failed: passkey_credentials.credential_id")
  else
    match db.passkeyCredentials.insert? passkey with
    | some passkeys => .ok { db with passkeyCredentials := passkeys }
    | none => .error (.database "UNIQUE constraint failed: passkey_credentials.id")

def completePasskeyRegistration (challengeId : ChallengeId) (passkey : PasskeyCredential)
    (now : Time) : Except Fault (Bool × IdentityDatabase) :=
  let consumable := fun challenge : AuthChallenge => challenge.id = challengeId &&
    (challenge.purpose = .passkeyRegistration && challenge.accountId = some passkey.accountId &&
      challenge.consumedAt.isNone && now < challenge.expiresAt &&
        (db.accounts.find? passkey.accountId).any fun account => account.status = .active)
  if db.authChallenges.affected consumable = 0 then .ok (false, db)
  else do
    let inserted ← (db.consume consumable now).insertPasskey passkey
    .ok (true, inserted)

def passkeyByCredentialId (credentialId : String) : Option PasskeyCredential :=
  db.passkeyCredentials.rows.find? fun row =>
    row.credentialId = credentialId && row.revokedAt.isNone

def revokePasskey (accountId : AccountId) (passkeyId : Uuid) (revokedAt : Time) :
    Bool × IdentityDatabase :=
  let selected := fun row : PasskeyCredential => row.id = passkeyId &&
    (row.accountId = accountId && row.revokedAt.isNone)
  (0 < db.passkeyCredentials.affected selected,
    { db with passkeyCredentials := db.passkeyCredentials.modify selected fun row =>
      { row with revokedAt := some revokedAt } })

end IdentityDatabase

/-! ## The same calls on both stores -/

def DynamoIdentity.createChallenge (challenge : AuthChallenge) : TableProgram Unit := do
  let written ← writeItem (.putNew (.challenge challenge.id) challenge)
  match written with
  | none => .fault (.database "ConditionalCheckFailedException")
  | some _ => return ()

/-- The calls of the two ceremonies and of the list of passkeys. -/
inductive CeremonyCall where
  | createChallenge (challenge : AuthChallenge)
  | completePasskeyRegistration (challengeId : ChallengeId) (passkey : PasskeyCredential)
      (now : Time)
  | passkeyByCredentialId (credentialId : String)
  | completePasskeySignIn (challengeId : ChallengeId) (passkey : PasskeyCredential)
      (session : AuthSession) (now : Time)
  | revokePasskey (accountId : AccountId) (passkeyId : Uuid) (revokedAt : Time)

namespace CeremonyCall

@[reducible] def Result : CeremonyCall → Type
  | .createChallenge _ => Unit
  | .completePasskeyRegistration .. => Bool
  | .passkeyByCredentialId _ => Option PasskeyCredential
  | .completePasskeySignIn .. => Option CompletedPasskeySignIn
  | .revokePasskey .. => Bool

def sqlx : (call : CeremonyCall) → IdentityDatabase → Except Fault (call.Result × IdentityDatabase)
  | .createChallenge challenge, db => (db.insertChallenge challenge).map fun after => ((), after)
  | .completePasskeyRegistration challengeId passkey now, db =>
      db.completePasskeyRegistration challengeId passkey now
  | .passkeyByCredentialId credentialId, db => .ok (db.passkeyByCredentialId credentialId, db)
  | .completePasskeySignIn challengeId passkey session now, db =>
      db.completePasskeySignIn challengeId passkey session now
  | .revokePasskey accountId passkeyId revokedAt, db =>
      .ok (db.revokePasskey accountId passkeyId revokedAt)

def dynamo (lookupDigest : String → String) : (call : CeremonyCall) → TableProgram call.Result
  | .createChallenge challenge => DynamoIdentity.createChallenge challenge
  | .completePasskeyRegistration challengeId passkey now =>
      DynamoIdentity.completePasskeyRegistration lookupDigest challengeId passkey now
  | .passkeyByCredentialId credentialId =>
      DynamoIdentity.passkeyByCredentialId lookupDigest credentialId
  | .completePasskeySignIn challengeId passkey session now =>
      DynamoIdentity.completePasskeySignIn challengeId passkey session now
  | .revokePasskey accountId passkeyId revokedAt =>
      DynamoIdentity.revokePasskey lookupDigest accountId passkeyId revokedAt

/-- What the caller learns from an answer: a refusal, as `Ok(false)` or
`Ok(None)`, is as good as an error. -/
def accepted : (call : CeremonyCall) → Except Fault call.Result → Option call.Result
  | _, .error _ => none
  | .createChallenge _, .ok value => some value
  | .completePasskeyRegistration .., .ok value => if value then some value else none
  | .passkeyByCredentialId _, .ok value => some value
  | .completePasskeySignIn .., .ok value => if value.isSome then some value else none
  | .revokePasskey .., .ok value => if value then some value else none

/-- A transaction that errs is rolled back. -/
def onSqlx (call : CeremonyCall) (db : IdentityDatabase) :
    IdentityDatabase × Option call.Result :=
  match call.sqlx db with
  | .ok (value, after) => (after, call.accepted (.ok value))
  | .error cause => (db, call.accepted (.error cause))

end CeremonyCall

section Alone

variable (queried : IdentityTable → (IdentityKey → Bool) → List ((key : IdentityKey) × key.Item))

/-- How the table answers a client while no other writes to it and no request
fails. -/
def serveAlone (table : IdentityTable) :
    (r : IdentityRequest) → Except Fault (IdentityTable × StoreRequest.Response Fault r)
  | .get key => .ok (table, .ok (table key))
  | .writeItem write =>
      if write.condition (table write.key) then
        .ok (write.apply table, .ok (some (write.effect (table write.key))))
      else .ok (table, .ok none)
  | .transact writes =>
      if writes.all fun write => write.condition (table write.key) then
        .ok (applyAll writes table, .committed)
      else .ok (table, .canceled (writes.map fun write =>
        if write.condition (table write.key) then none else some conditionalCheckFailed))
  | .query selected => .ok (table, .ok (queried table selected))

def CeremonyCall.onDynamo (lookupDigest : String → String) (call : CeremonyCall)
    (table : IdentityTable) : IdentityTable × Option call.Result :=
  let ran := (call.dynamo lookupDigest).exec (serveAlone queried) table
  (ran.1, call.accepted ran.2)

variable {queried}

theorem canceledOnlyByConditionChecks_alone (writes : List IdentityWrite) (table : IdentityTable) :
    DynamoIdentity.canceledOnlyByConditionChecks (writes.map fun write =>
      if write.condition (table write.key) then none else some conditionalCheckFailed) = true := by
  simp only [DynamoIdentity.canceledOnlyByConditionChecks, Bool.or_eq_true, List.all_eq_true,
    List.mem_map]
  right
  rintro _ ⟨write, _, rfl⟩
  split <;> simp [conditionalCheckFailed]

/-- A transaction that no other client disturbs is decided at once. -/
theorem exec_transactRefusable {α : Type} (writes : List IdentityWrite)
    (committed : TableProgram α) (refused : α) (conflicted : String) (attempts : ℕ)
    (table : IdentityTable) :
    (DynamoIdentity.transactRefusable writes committed refused conflicted (attempts + 1)).exec
        (serveAlone queried) table =
      if writes.all fun write => write.condition (table write.key) then
        committed.exec (serveAlone queried) (applyAll writes table)
      else (table, .ok refused) := by
  rw [DynamoIdentity.transactRefusable, Program.exec_request]
  cases hholds : writes.all fun write => write.condition (table write.key) with
  | true => simp [serveAlone, hholds]
  | false => simp [serveAlone, hholds, canceledOnlyByConditionChecks_alone]

end Alone

/-! ## Stores that hold the same passkeys -/

/-- The same accounts, challenges that can still be used, and passkeys. -/
structure SamePasskeys (lookupDigest : String → String) (since : Time) (db : IdentityDatabase)
    (table : IdentityTable) : Prop where
  accounts : ∀ accountId, db.accounts.find? accountId = table (.profile accountId)
  challenges : ∀ challengeId,
    (db.authChallenges.find? challengeId).filter (fun challenge => since < challenge.expiresAt) =
      (table (.challenge challengeId)).filter fun challenge => since < challenge.expiresAt
  passkeys : ∀ accountId passkeyId,
    (db.passkeyCredentials.find? passkeyId).filter (fun passkey => passkey.accountId = accountId) =
      table (.passkey accountId passkeyId)
  lookups : PasskeysConsistent lookupDigest table

section Options

variable {α : Type} {first second : Option α} {p q : α → Bool}

/-- Two values that agree where `q` holds agree where something stronger does. -/
theorem filter_eq_of_imp (hsame : first.filter q = second.filter q)
    (himplies : ∀ value, p value = true → q value = true) : first.filter p = second.filter p := by
  have hboth : ∀ found : Option α, found.filter p = (found.filter q).filter p := by
    intro found
    cases found with
    | none => rfl
    | some value =>
        cases hq : q value with
        | true => simp [Option.filter, hq]
        | false =>
            cases hp : p value with
            | true => simp [himplies value hp] at hq
            | false => simp [Option.filter, hq, hp]
  rw [hboth first, hboth second, hsame]

theorem any_eq_isSome_filter (found : Option α) : found.any p = (found.filter p).isSome := by
  cases found with
  | none => rfl
  | some value => cases hp : p value <;> simp [Option.filter, hp]

theorem any_eq_of_imp (hsame : first.filter q = second.filter q)
    (himplies : ∀ value, p value = true → q value = true) : first.any p = second.any p := by
  rw [any_eq_isSome_filter, any_eq_isSome_filter, filter_eq_of_imp hsame himplies]

/-- A value that passes is the same on both sides. -/
theorem eq_some_of_any (hsame : first.filter q = second.filter q)
    (himplies : ∀ value, p value = true → q value = true) (hany : first.any p = true) :
    ∃ value, first = some value ∧ second = some value ∧ p value = true := by
  obtain ⟨value, hfirst, hp⟩ := (Option.any_eq_true ..).mp hany
  refine ⟨value, hfirst, ?_, hp⟩
  have hfiltered : second.filter q = some value := by
    rw [← hsame, hfirst, Option.filter_some, if_pos (himplies value hp)]
  exact (Option.filter_eq_some_iff.mp hfiltered).1

end Options

namespace SamePasskeys

variable {lookupDigest : String → String} {since now : Time} {db : IdentityDatabase}
  {table : IdentityTable}
  {queried : IdentityTable → (IdentityKey → Bool) → List ((key : IdentityKey) × key.Item)}

/-- A challenge that expires is no longer compared. -/
theorem later (hsame : SamePasskeys lookupDigest since db table) (hclock : since ≤ now) :
    SamePasskeys lookupDigest now db table where
  accounts := hsame.accounts
  challenges := fun challengeId => by
    apply filter_eq_of_imp (hsame.challenges challengeId)
    intro challenge hlive
    simp only [decide_eq_true_eq] at hlive ⊢
    exact lt_of_le_of_lt hclock hlive
  passkeys := hsame.passkeys
  lookups := hsame.lookups

theorem mem_rows_iff (hsame : SamePasskeys lookupDigest now db table) {row : PasskeyCredential} :
    row ∈ db.passkeyCredentials.rows ↔ table (.passkey row.accountId row.id) = some row := by
  rw [KeyedTable.mem_rows_iff, ← hsame.passkeys]
  simp [Option.filter_eq_some_iff]

theorem live_iff (hsame : SamePasskeys lookupDigest now db table) {row : PasskeyCredential} :
    row ∈ db.passkeyCredentials.rows ∧ row.revokedAt = none ↔
      table (.credential (lookupDigest row.credentialId)) = some ⟨row.accountId, row.id⟩ ∧
        table (.passkey row.accountId row.id) = some row := by
  rw [hsame.mem_rows_iff, hsame.lookups]
  constructor
  · rintro ⟨hrow, hlive⟩
    exact ⟨⟨row, hrow, rfl, hlive⟩, hrow⟩
  · rintro ⟨⟨other, hother, _, hlive⟩, hrow⟩
    have hfound := hother.symm.trans hrow
    cases hfound
    exact ⟨hrow, hlive⟩

/-- The partial index and the lookup item lead to the same passkey. -/
theorem passkeyByCredentialId (hsame : SamePasskeys lookupDigest now db table)
    (credentialId : String) :
    db.passkeyByCredentialId credentialId =
      (table (.credential (lookupDigest credentialId))).bind fun lookup =>
        table (.passkey lookup.accountId lookup.passkeyId) := by
  unfold IdentityDatabase.passkeyByCredentialId
  cases hfound : db.passkeyCredentials.rows.find? fun row =>
      row.credentialId = credentialId && row.revokedAt.isNone with
  | some row =>
      have hrow := List.find?_some hfound
      simp only [Bool.and_eq_true, decide_eq_true_eq, Option.isNone_iff_eq_none] at hrow
      have hlive := hsame.live_iff.mp ⟨List.mem_of_find?_eq_some hfound, hrow.2⟩
      rw [hrow.1] at hlive
      simp [hlive.1, hlive.2]
  | none =>
      cases hlookup : table (.credential (lookupDigest credentialId)) with
      | none => rfl
      | some lookup =>
          obtain ⟨row, hrow, hcredential, hlive⟩ := (hsame.lookups _ _ _).mp hlookup
          have hkey : row.accountId = lookup.accountId ∧ row.id = lookup.passkeyId := by
            have hstored := (hsame.passkeys _ _).trans hrow
            simp only [Option.filter_eq_some_iff, decide_eq_true_eq] at hstored
            exact ⟨hstored.2, KeyedTable.key_of_find? hstored.1⟩
          rw [← hkey.1, ← hkey.2] at hrow
          have habsent := List.find?_eq_none.mp hfound row (hsame.mem_rows_iff.mpr hrow)
          simp [hcredential, hlive] at habsent

theorem any_live (hsame : SamePasskeys lookupDigest now db table) (credentialId : String) :
    db.passkeyCredentials.rows.any (fun row =>
        row.credentialId = credentialId && row.revokedAt.isNone) =
      (table (.credential (lookupDigest credentialId))).isSome := by
  have hfound := hsame.passkeyByCredentialId credentialId
  unfold IdentityDatabase.passkeyByCredentialId at hfound
  rw [← List.isSome_find?, hfound]
  cases hlookup : table (.credential (lookupDigest credentialId)) with
  | none => rfl
  | some lookup =>
      obtain ⟨row, hrow, _⟩ := (hsame.lookups _ _ _).mp hlookup
      simp [hrow]

/-! ## One call on both stores -/

/-- The stores agree on a call: the caller learns the same, and they still hold
the same passkeys. -/
def Agrees (lookupDigest : String → String)
    (queried : IdentityTable → (IdentityKey → Bool) → List ((key : IdentityKey) × key.Item))
    (now : Time) (db : IdentityDatabase) (table : IdentityTable) (call : CeremonyCall) : Prop :=
  (call.onSqlx db).2 = (call.onDynamo queried lookupDigest table).2 ∧
    SamePasskeys lookupDigest now (call.onSqlx db).1 (call.onDynamo queried lookupDigest table).1

theorem agrees_passkeyByCredentialId (hsame : SamePasskeys lookupDigest now db table)
    (credentialId : String) :
    Agrees lookupDigest queried now db table (.passkeyByCredentialId credentialId) := by
  have hran : (DynamoIdentity.passkeyByCredentialId lookupDigest credentialId).exec
      (serveAlone queried) table = (table, .ok (db.passkeyByCredentialId credentialId)) := by
    rw [hsame.passkeyByCredentialId credentialId]
    unfold DynamoIdentity.passkeyByCredentialId DynamoIdentity.getItem
    simp only [Program.request_bind, Program.exec_request, serveAlone, Program.ofExcept,
      Program.done_bind]
    cases table (.credential (lookupDigest credentialId)) with
    | none => rfl
    | some lookup => simp [Program.exec_request, serveAlone, Program.ofExcept]
  unfold Agrees CeremonyCall.onSqlx CeremonyCall.onDynamo
  simp only [CeremonyCall.sqlx, CeremonyCall.dynamo, hran]
  exact ⟨trivial, hsame⟩

theorem agrees_createChallenge (hsame : SamePasskeys lookupDigest now db table)
    {challenge : AuthChallenge} (hdb : db.authChallenges.find? challenge.id = none)
    (htable : table (.challenge challenge.id) = none)
    (howner : (challenge.accountId.all fun accountId =>
      (db.accounts.find? accountId).isSome) = true) :
    Agrees lookupDigest queried now db table (.createChallenge challenge) := by
  obtain ⟨challenges, hinsert⟩ : ∃ challenges, db.authChallenges.insert? challenge =
      some challenges := by
    rw [← Option.isSome_iff_exists, Option.isSome_iff_ne_none, ne_eq,
      KeyedTable.insert?_eq_none_iff, hdb]
    exact Bool.false_ne_true
  have hsqlx : db.insertChallenge challenge = .ok { db with authChallenges := challenges } := by
    unfold IdentityDatabase.insertChallenge
    rw [if_pos howner, hinsert]
  have hran : (DynamoIdentity.createChallenge challenge).exec (serveAlone queried) table =
      ((Write.putNew (.challenge challenge.id) challenge).apply table, .ok ()) := by
    unfold DynamoIdentity.createChallenge DynamoIdentity.writeItem
    simp [Program.exec_request, serveAlone, Program.ofExcept, Write.putNew, Write.putIf, htable]
  have hkept : ∀ key, key ≠ .challenge challenge.id →
      (Write.putNew (.challenge challenge.id) challenge).apply table key = table key := by
    intro key hne
    exact Write.apply_of_ne _ _ hne
  unfold Agrees CeremonyCall.onSqlx CeremonyCall.onDynamo
  simp only [CeremonyCall.sqlx, CeremonyCall.dynamo, hran, hsqlx, Except.map]
  refine ⟨trivial, ?_, ?_, ?_, ?_⟩
  · intro accountId
    rw [hkept _ (by simp)]
    exact hsame.accounts accountId
  · intro challengeId
    rw [KeyedTable.find?_insert? hinsert]
    by_cases hid : challenge.id = challengeId
    · subst hid
      rw [if_pos rfl]
      congr 1
      exact (Write.apply_self (Write.putNew (.challenge challenge.id) challenge) table).symm
    · rw [if_neg hid, hkept _ (by simpa using Ne.symm hid)]
      exact hsame.challenges challengeId
  · intro accountId passkeyId
    rw [hkept _ (by simp)]
    exact hsame.passkeys accountId passkeyId
  · intro credentialId accountId passkeyId
    unfold Carries
    rw [hkept _ (by simp), hkept _ (by simp)]
    exact hsame.lookups credentialId accountId passkeyId

theorem affected_eq_zero_iff {α κ : Type} [DecidableEq κ] {key : α → κ} (rows : KeyedTable α κ key)
    (k : κ) (p : α → Bool) :
    rows.affected (fun row => key row = k && p row) = 0 ↔ (rows.find? k).any p = false := by
  rw [KeyedTable.affected_eq]
  cases rows.find? k with
  | none => simp
  | some row =>
      by_cases hrow : p row = true <;> simp [hrow]

/-- A challenge that both stores consume under one condition. -/
theorem consumed_challenges (hsame : SamePasskeys lookupDigest now db table)
    {writes : List IdentityWrite} (hkeys : (writes.map Write.key).Nodup)
    {challengeId : ChallengeId} {p : AuthChallenge → Bool}
    (hmem : Write.update (.challenge challengeId) p
      (fun challenge : AuthChallenge => { challenge with consumedAt := some now }) ∈ writes)
    (hholds : (table (.challenge challengeId)).any p = true)
    (hlive : ∀ challenge, p challenge = true → now < challenge.expiresAt)
    (hkept : ∀ id, id ≠ challengeId → applyAll writes table (.challenge id) = table (.challenge id))
    (id : ChallengeId) :
    ((db.consume (fun challenge => challenge.id = challengeId && p challenge)
        now).authChallenges.find? id).filter (fun challenge => now < challenge.expiresAt) =
      (applyAll writes table (.challenge id)).filter fun challenge => now < challenge.expiresAt := by
  rw [IdentityDatabase.find?_consume]
  by_cases hid : id = challengeId
  · subst hid
    obtain ⟨challenge, htable, hdb, hp⟩ := eq_some_of_any (hsame.challenges id).symm
      (fun challenge hp => decide_eq_true (hlive challenge hp)) hholds
    have hkey := KeyedTable.key_of_find? hdb
    have hwritten : applyAll writes table (.challenge id) = (table (.challenge id)).map
        fun challenge => { challenge with consumedAt := some now } :=
      applyAll_of_mem hkeys hmem table
    rw [hwritten, hdb, htable]
    simp [hkey, hp]
  · have hsameRow : ((db.authChallenges.find? id).map fun challenge =>
        if challenge.id = challengeId && p challenge then
          { challenge with consumedAt := some now } else challenge) =
        db.authChallenges.find? id := by
      cases hfound : db.authChallenges.find? id with
      | none => rfl
      | some challenge =>
          have hkey := KeyedTable.key_of_find? hfound
          simp [hkey, hid]
    rw [hkept id hid]
    simp only [hsameRow]
    exact hsame.challenges id

/-- A passkey that both stores update under one condition. -/
theorem updated_passkeys (hsame : SamePasskeys lookupDigest now db table) {accountId : AccountId}
    {passkeyId : Uuid} {p : PasskeyCredential → Bool} {f : PasskeyCredential → PasskeyCredential}
    (hid : ∀ row, (f row).id = row.id) (howner : ∀ row, (f row).accountId = row.accountId)
    (hp : ∀ row, p row = true → row.accountId = accountId) {after : IdentityTable}
    (hupdated : after (.passkey accountId passkeyId) =
      (table (.passkey accountId passkeyId)).map fun row => if p row then f row else row)
    (hkept : ∀ owner id, ¬ (owner = accountId ∧ id = passkeyId) →
      after (.passkey owner id) = table (.passkey owner id)) (owner : AccountId) (id : Uuid) :
    ((db.passkeyCredentials.modify (fun row => row.id = passkeyId && p row) f hid).find? id).filter
        (fun row => row.accountId = owner) = after (.passkey owner id) := by
  rw [KeyedTable.find?_modify]
  by_cases hkey : owner = accountId ∧ id = passkeyId
  · obtain ⟨hownerKey, hidKey⟩ := hkey
    subst hownerKey hidKey
    rw [hupdated, ← hsame.passkeys]
    cases hfound : db.passkeyCredentials.find? id with
    | none => rfl
    | some row =>
        have hrow := KeyedTable.key_of_find? hfound
        by_cases hsameOwner : row.accountId = owner
        · cases hrowP : p row <;> simp [Option.filter, hrow, hrowP, hsameOwner, howner]
        · have hrowP : p row = false := by
            rw [Bool.eq_false_iff]
            exact fun hrowP => hsameOwner (hp row hrowP)
          simp [Option.filter, hrowP, hsameOwner]
  · rw [hkept owner id hkey, ← hsame.passkeys]
    cases hfound : db.passkeyCredentials.find? id with
    | none => rfl
    | some row =>
        have hrow := KeyedTable.key_of_find? hfound
        by_cases hselected : id = passkeyId ∧ p row = true
        · have hother : owner ≠ accountId := fun hsameOwner => hkey ⟨hsameOwner, hselected.1⟩
          have hrowOwner := hp row hselected.2
          simp [Option.filter, hrow, hselected.1, hselected.2, howner, hrowOwner, Ne.symm hother]
        · have hnot : (decide (row.id = passkeyId) && p row) = false := by
            rw [hrow]
            simpa using hselected
          simp only [Option.map_some, hnot, Bool.false_eq_true, if_false]

/-! ### Revocation -/

theorem exec_revokePasskey (accountId : AccountId) (passkeyId : Uuid) (revokedAt : Time)
    (table : IdentityTable) :
    (DynamoIdentity.revokePasskey lookupDigest accountId passkeyId revokedAt).exec
        (serveAlone queried) table =
      match table (.passkey accountId passkeyId) with
      | none => (table, .ok false)
      | some passkey =>
          if passkey.revokedAt.isSome then (table, .ok false)
          else (applyAll (DynamoIdentity.revokePasskeyWrites lookupDigest accountId passkeyId
            passkey revokedAt) table, .ok true) := by
  unfold DynamoIdentity.revokePasskey DynamoIdentity.revokePasskeyAttempts DynamoIdentity.getItem
  simp only [Program.request_bind, Program.exec_request, serveAlone, Program.ofExcept,
    Program.done_bind]
  cases hfound : table (.passkey accountId passkeyId) with
  | none => rfl
  | some passkey =>
      cases hrevoked : passkey.revokedAt with
      | some time => simp [hrevoked]
      | none =>
          have hholds : ((DynamoIdentity.revokePasskeyWrites lookupDigest accountId passkeyId
              passkey revokedAt).all fun write => write.condition (table write.key)) = true := by
            simp [DynamoIdentity.revokePasskeyWrites, Write.update, Write.delete, hfound, hrevoked]
          simp [hrevoked, Program.exec_request, serveAlone, hholds]

theorem agrees_revokePasskey (hsame : SamePasskeys lookupDigest now db table)
    (hdigest : Function.Injective lookupDigest) (accountId : AccountId) (passkeyId : Uuid)
    (revokedAt : Time) :
    Agrees lookupDigest queried now db table (.revokePasskey accountId passkeyId revokedAt) := by
  have hany : (db.passkeyCredentials.find? passkeyId).any
      (fun row => row.accountId = accountId && row.revokedAt.isNone) =
        (table (.passkey accountId passkeyId)).any fun row => row.revokedAt.isNone := by
    rw [← hsame.passkeys]
    cases db.passkeyCredentials.find? passkeyId with
    | none => rfl
    | some row => by_cases howner : row.accountId = accountId <;> simp [Option.filter, howner]
  have haffected : decide (0 < db.passkeyCredentials.affected (fun row => row.id = passkeyId &&
      (row.accountId = accountId && row.revokedAt.isNone))) =
        (table (.passkey accountId passkeyId)).any fun row => row.revokedAt.isNone := by
    rw [← hany, KeyedTable.affected_eq]
    cases db.passkeyCredentials.find? passkeyId with
    | none => rfl
    | some row =>
        simp only [Option.elim_some, Option.any_some]
        by_cases hrow : (decide (row.accountId = accountId) && row.revokedAt.isNone) = true
        · simp only [hrow, if_true, Nat.zero_lt_one, decide_true]
        · simp only [hrow, Bool.false_eq_true, if_false, Nat.lt_irrefl, decide_false]
  have hsqlx : ∀ after : IdentityTable,
      (after (.passkey accountId passkeyId) = (table (.passkey accountId passkeyId)).map fun row =>
        if row.accountId = accountId && row.revokedAt.isNone then
          { row with revokedAt := some revokedAt } else row) →
      (∀ key : IdentityKey, key ≠ .passkey accountId passkeyId →
        (∀ digest, key ≠ .credential digest) → after key = table key) →
      PasskeysConsistent lookupDigest after →
      SamePasskeys lookupDigest now (db.revokePasskey accountId passkeyId revokedAt).2 after := by
    intro after hupdated hkept hconsistent
    refine ⟨?_, ?_, ?_, hconsistent⟩
    · intro owner
      rw [hkept _ (by simp) (by simp)]
      exact hsame.accounts owner
    · intro challengeId
      rw [hkept _ (by simp) (by simp)]
      exact hsame.challenges challengeId
    · intro owner id
      refine updated_passkeys hsame (p := fun row => row.accountId = accountId &&
        row.revokedAt.isNone) (f := fun row => { row with revokedAt := some revokedAt })
        (fun _ => rfl) (fun _ => rfl) ?_ hupdated ?_ owner id
      · intro row hrow
        simp only [Bool.and_eq_true, decide_eq_true_eq] at hrow
        exact hrow.1
      · intro other otherId hne
        exact hkept _ (by simpa using hne) (by simp)
  have hagrees : ∀ (after : IdentityTable) (value : Bool),
      (DynamoIdentity.revokePasskey lookupDigest accountId passkeyId revokedAt).exec
        (serveAlone queried) table = (after, .ok value) →
      ((table (.passkey accountId passkeyId)).any fun row => row.revokedAt.isNone) = value →
      SamePasskeys lookupDigest now (db.revokePasskey accountId passkeyId revokedAt).2 after →
      Agrees lookupDigest queried now db table
        (.revokePasskey accountId passkeyId revokedAt) := by
    intro after value hran hvalue hafter
    have hreply : (db.revokePasskey accountId passkeyId revokedAt).1 = value :=
      haffected.trans hvalue
    unfold Agrees CeremonyCall.onSqlx CeremonyCall.onDynamo
    simp only [CeremonyCall.sqlx, CeremonyCall.dynamo, hran]
    exact ⟨by rw [← hreply], hafter⟩
  have howner : ∀ row, table (.passkey accountId passkeyId) = some row →
      row.accountId = accountId := by
    intro row hrow
    have hstored := (hsame.passkeys _ _).trans hrow
    simp only [Option.filter_eq_some_iff, decide_eq_true_eq] at hstored
    exact hstored.2
  have hran : (DynamoIdentity.revokePasskey lookupDigest accountId passkeyId revokedAt).exec
      (serveAlone queried) table = _ := exec_revokePasskey accountId passkeyId revokedAt table
  cases hfound : table (.passkey accountId passkeyId) with
  | none =>
      simp only [hfound] at hran
      refine hagrees table false hran (by simp [hfound])
        (hsqlx table ?_ (fun _ _ _ => rfl) hsame.lookups)
      simp [hfound]
  | some passkey =>
      cases hrevoked : passkey.revokedAt with
      | some time =>
          simp only [hfound, hrevoked, Option.isSome_some, if_true] at hran
          refine hagrees table false hran (by simp [hfound, hrevoked])
            (hsqlx table ?_ (fun _ _ _ => rfl) hsame.lookups)
          simp [hfound, hrevoked]
      | none =>
          simp only [hfound, hrevoked, Option.isSome_none, Bool.false_eq_true, if_false] at hran
          have hkeys : ((DynamoIdentity.revokePasskeyWrites lookupDigest accountId passkeyId
              passkey revokedAt).map Write.key).Nodup := by
            simp [DynamoIdentity.revokePasskeyWrites, Write.update, Write.delete]
          have hholds : ∀ write ∈ DynamoIdentity.revokePasskeyWrites lookupDigest accountId
              passkeyId passkey revokedAt, write.Holds table := by
            simp [DynamoIdentity.revokePasskeyWrites, Write.update, Write.delete, Write.Holds,
              hfound, hrevoked]
          refine hagrees _ true hran (by simp [hfound, hrevoked])
            (hsqlx _ ?_ ?_ (hsame.lookups.revoke hdigest hholds))
          · have hwritten : applyAll (DynamoIdentity.revokePasskeyWrites lookupDigest accountId
                passkeyId passkey revokedAt) table (.passkey accountId passkeyId) =
                  (table (.passkey accountId passkeyId)).map fun row =>
                    { row with revokedAt := some revokedAt } :=
              applyAll_of_mem hkeys List.mem_cons_self table
            rw [hwritten, hfound]
            simp [howner passkey hfound, hrevoked]
          · intro key hpasskey hcredential
            apply applyAll_of_not_mem
            simp [DynamoIdentity.revokePasskeyWrites, Write.update, Write.delete, hpasskey,
              hcredential]

/-! ### Registration -/

/-- The condition on the challenge of a registration. -/
def Registers (accountId : AccountId) (now : Time) (challenge : AuthChallenge) : Bool :=
  challenge.purpose = .passkeyRegistration && challenge.accountId = some accountId &&
    challenge.consumedAt.isNone && now < challenge.expiresAt

theorem registration_ready (hsame : SamePasskeys lookupDigest now db table)
    (challengeId : ChallengeId) {passkey : PasskeyCredential}
    (hfresh : db.passkeyCredentials.find? passkey.id = none) :
    ((DynamoIdentity.registrationWrites lookupDigest challengeId passkey now).all fun write =>
        write.condition (table write.key)) =
      ((db.authChallenges.find? challengeId).any (Registers passkey.accountId now) &&
        ((db.accounts.find? passkey.accountId).any (fun account => account.status = .active) &&
          !db.passkeyCredentials.rows.any fun row =>
            row.credentialId = passkey.credentialId && row.revokedAt.isNone)) := by
  have hchallenge : (db.authChallenges.find? challengeId).any (Registers passkey.accountId now) =
      (table (.challenge challengeId)).any (Registers passkey.accountId now) := by
    apply any_eq_of_imp (hsame.challenges challengeId)
    intro challenge hregisters
    simp only [Registers, Bool.and_eq_true] at hregisters
    exact hregisters.2
  have hfree : table (.passkey passkey.accountId passkey.id) = none := by
    rw [← hsame.passkeys, hfresh, Option.filter_none]
  rw [hchallenge, hsame.accounts, hsame.any_live]
  simp only [DynamoIdentity.registrationWrites, DynamoIdentity.activeAccountCheck,
    DynamoIdentity.passkeyPut, DynamoIdentity.credentialPut, Write.update, Write.check,
    Write.putNew, Write.putIf, List.all_cons, List.all_nil, hfree, Option.isNone_none,
    Bool.true_and, Bool.and_true]
  rw [Option.not_isSome]
  rfl

/-- The row of the challenge that a registration consumes, and its condition. -/
theorem affected_registration (db : IdentityDatabase) (challengeId : ChallengeId)
    (passkey : PasskeyCredential) (now : Time) (active : Bool) :
    db.authChallenges.affected (fun challenge => challenge.id = challengeId &&
        (challenge.purpose = .passkeyRegistration && challenge.accountId = some passkey.accountId &&
          challenge.consumedAt.isNone && now < challenge.expiresAt && active)) = 0 ↔
      ((db.authChallenges.find? challengeId).any (Registers passkey.accountId now) && active) =
        false := by
  rw [affected_eq_zero_iff]
  cases db.authChallenges.find? challengeId with
  | none => simp
  | some challenge => simp only [Option.any_some, Registers]

theorem onSqlx_registration (db : IdentityDatabase) (challengeId : ChallengeId)
    {passkey : PasskeyCredential} (now : Time) (hnew : passkey.revokedAt = none)
    (hfresh : db.passkeyCredentials.find? passkey.id = none) :
    ∃ passkeys, db.passkeyCredentials.insert? passkey = some passkeys ∧
      (CeremonyCall.completePasskeyRegistration challengeId passkey now).onSqlx db =
        if ((db.authChallenges.find? challengeId).any (Registers passkey.accountId now) &&
            ((db.accounts.find? passkey.accountId).any (fun account => account.status = .active) &&
              !db.passkeyCredentials.rows.any fun row =>
                row.credentialId = passkey.credentialId && row.revokedAt.isNone)) then
          ({ db.consume (fun challenge => challenge.id = challengeId &&
              Registers passkey.accountId now challenge) now with
            passkeyCredentials := passkeys }, some true)
        else (db, none) := by
  obtain ⟨passkeys, hinsert⟩ : ∃ passkeys, db.passkeyCredentials.insert? passkey =
      some passkeys := by
    rw [← Option.isSome_iff_exists, Option.isSome_iff_ne_none, ne_eq,
      KeyedTable.insert?_eq_none_iff, hfresh]
    exact Bool.false_ne_true
  refine ⟨passkeys, hinsert, ?_⟩
  unfold CeremonyCall.onSqlx
  simp only [CeremonyCall.sqlx, IdentityDatabase.completePasskeyRegistration,
    affected_registration]
  cases hchallenge : (db.authChallenges.find? challengeId).any (Registers passkey.accountId now) with
  | false => simp [CeremonyCall.accepted]
  | true =>
      cases hactive : (db.accounts.find? passkey.accountId).any
          fun account => account.status = .active with
      | false => simp [CeremonyCall.accepted]
      | true =>
          have hexists : (db.accounts.find? passkey.accountId).isNone = false := by
            obtain ⟨account, haccount, _⟩ := (Option.any_eq_true ..).mp hactive
            simp [haccount]
          have haccounts : ∀ selected, (db.consume selected now).accounts = db.accounts :=
            fun _ => rfl
          have hpasskeys : ∀ selected,
              (db.consume selected now).passkeyCredentials = db.passkeyCredentials := fun _ => rfl
          cases htaken : db.passkeyCredentials.rows.any fun row =>
              row.credentialId = passkey.credentialId && row.revokedAt.isNone with
          | true =>
              simp [IdentityDatabase.insertPasskey, haccounts, hpasskeys, hexists, hnew, htaken,
                CeremonyCall.accepted, bind, Except.bind]
          | false =>
              simp [IdentityDatabase.insertPasskey, haccounts, hpasskeys, hexists, hnew, htaken,
                hinsert, CeremonyCall.accepted, bind, Except.bind, Registers]

theorem agrees_completePasskeyRegistration (hsame : SamePasskeys lookupDigest now db table)
    (hdigest : Function.Injective lookupDigest) (challengeId : ChallengeId)
    {passkey : PasskeyCredential} (hnew : passkey.revokedAt = none)
    (hfresh : db.passkeyCredentials.find? passkey.id = none) :
    Agrees lookupDigest queried now db table
      (.completePasskeyRegistration challengeId passkey now) := by
  obtain ⟨passkeys, hinsert, hsqlx⟩ := onSqlx_registration db challengeId now hnew hfresh
  have hready := registration_ready hsame challengeId hfresh
  unfold Agrees
  rw [hsqlx]
  unfold CeremonyCall.onDynamo
  simp only [CeremonyCall.dynamo, DynamoIdentity.completePasskeyRegistration]
  rw [exec_transactRefusable, hready]
  split
  next hholds =>
    refine ⟨by simp [CeremonyCall.accepted], ?_⟩
    simp only [Program.exec_done]
    rw [← hready, List.all_eq_true] at hholds
    have hkeys : ((DynamoIdentity.registrationWrites lookupDigest challengeId passkey now).map
        Write.key).Nodup := by
      simp [DynamoIdentity.registrationWrites, Write.update, DynamoIdentity.activeAccountCheck,
        Write.check, DynamoIdentity.passkeyPut, DynamoIdentity.credentialPut, Write.putNew,
        Write.putIf]
    have hkept : ∀ key : IdentityKey, key ≠ .challenge challengeId →
        key ≠ .passkey passkey.accountId passkey.id →
        key ≠ .credential (lookupDigest passkey.credentialId) →
        applyAll (DynamoIdentity.registrationWrites lookupDigest challengeId passkey now) table key =
          table key := by
      intro key hchallenge hpasskey hcredential
      by_cases hprofile : key = .profile passkey.accountId
      · subst hprofile
        have hmem : DynamoIdentity.activeAccountCheck passkey.accountId ∈
            DynamoIdentity.registrationWrites lookupDigest challengeId passkey now :=
          List.mem_cons_of_mem _ List.mem_cons_self
        exact applyAll_of_mem hkeys hmem table
      · apply applyAll_of_not_mem
        simp [DynamoIdentity.registrationWrites, Write.update, DynamoIdentity.activeAccountCheck,
          Write.check, DynamoIdentity.passkeyPut, DynamoIdentity.credentialPut, Write.putNew,
          Write.putIf, hchallenge, hpasskey, hcredential, hprofile]
    refine ⟨?_, ?_, ?_, ?_⟩
    · intro accountId
      rw [hkept _ (by simp) (by simp) (by simp)]
      exact hsame.accounts accountId
    · intro id
      refine consumed_challenges hsame hkeys List.mem_cons_self (hholds _ List.mem_cons_self)
        ?_ ?_ id
      · intro challenge hregisters
        simp only [Bool.and_eq_true, decide_eq_true_eq] at hregisters
        exact hregisters.2
      · intro other hne
        exact hkept _ (by simpa using hne) (by simp) (by simp)
    · intro accountId passkeyId
      rw [KeyedTable.find?_insert? hinsert]
      by_cases hid : passkey.id = passkeyId
      · subst hid
        rw [if_pos rfl, Option.filter_some]
        by_cases howner : passkey.accountId = accountId
        · subst howner
          have hmem : DynamoIdentity.passkeyPut passkey ∈
              DynamoIdentity.registrationWrites lookupDigest challengeId passkey now :=
            List.mem_cons_of_mem _ (List.mem_cons_of_mem _ List.mem_cons_self)
          rw [if_pos (by simp)]
          exact (applyAll_of_mem hkeys hmem table).symm
        · rw [if_neg (by simpa using howner),
            hkept _ (by simp) (by simpa using Ne.symm howner) (by simp), ← hsame.passkeys,
            hfresh, Option.filter_none]
      · rw [if_neg hid, hkept _ (by simp) (by simp [Ne.symm hid]) (by simp)]
        exact hsame.passkeys accountId passkeyId
    · have hserves : Serves table (.transact (DynamoIdentity.registrationWrites lookupDigest
          challengeId passkey now)) (.committed : Outcome Fault) _ := .committed _ hkeys hholds
      exact hsame.lookups.served hdigest (.registered challengeId passkey now hnew) hserves
  next =>
    exact ⟨by simp [CeremonyCall.accepted], hsame⟩

/-! ### Sign-in -/

/-- The condition on the challenge of a sign-in. -/
def Authenticates (now : Time) (challenge : AuthChallenge) : Bool :=
  challenge.purpose = .passkeyAuthentication && challenge.consumedAt.isNone &&
    now < challenge.expiresAt

/-- The condition on the row of the passkey. -/
def Usable (passkey row : PasskeyCredential) : Bool :=
  row.accountId = passkey.accountId && (row.revokedAt.isNone &&
    row.credentialId = passkey.credentialId)

/-- The account as a sign-in leaves it. -/
def authenticated (now : Time) (account : Account) : Account :=
  { account with updatedAt := now, lastAuthenticatedAt := now }

theorem signIn_ready (hsame : SamePasskeys lookupDigest now db table) (challengeId : ChallengeId)
    (passkey : PasskeyCredential) {session : AuthSession}
    (hfresh : table (.session session.accountId session.id) = none) :
    ((DynamoIdentity.passkeySignInWrites challengeId passkey session now).all fun write =>
        write.condition (table write.key)) =
      ((db.authChallenges.find? challengeId).any (Authenticates now) &&
        ((db.passkeyCredentials.find? passkey.id).any (Usable passkey) &&
          (db.accounts.find? passkey.accountId).any fun account => account.status = .active)) := by
  have hchallenge : (db.authChallenges.find? challengeId).any (Authenticates now) =
      (table (.challenge challengeId)).any (Authenticates now) := by
    apply any_eq_of_imp (hsame.challenges challengeId)
    intro challenge hauthenticates
    simp only [Authenticates, Bool.and_eq_true] at hauthenticates
    exact hauthenticates.2
  have hpasskey : (db.passkeyCredentials.find? passkey.id).any (Usable passkey) =
      (table (.passkey passkey.accountId passkey.id)).any fun row =>
        row.revokedAt.isNone && row.credentialId = passkey.credentialId := by
    rw [← hsame.passkeys]
    cases db.passkeyCredentials.find? passkey.id with
    | none => rfl
    | some row =>
        by_cases howner : row.accountId = passkey.accountId <;>
          simp [Option.filter, Usable, howner]
  rw [hchallenge, hpasskey, hsame.accounts]
  simp only [DynamoIdentity.passkeySignInWrites, DynamoIdentity.sessionPut,
    DynamoIdentity.updateAccount, Write.update, Write.putNew, Write.putIf, List.all_cons,
    List.all_nil, hfresh, Option.isNone_none, Bool.true_and, Bool.and_true]
  rfl

theorem onSqlx_signIn (db : IdentityDatabase) (challengeId : ChallengeId)
    {passkey : PasskeyCredential} {session : AuthSession} (now : Time)
    (howner : passkey.accountId = session.accountId) (hkey : session.apiKeyId = none)
    (hfresh : db.authSessions.find? session.id = none) :
    ∃ sessions, (CeremonyCall.completePasskeySignIn challengeId passkey session now).onSqlx db =
        if ((db.authChallenges.find? challengeId).any (Authenticates now) &&
            ((db.passkeyCredentials.find? passkey.id).any (Usable passkey) &&
              (db.accounts.find? passkey.accountId).any fun account =>
                account.status = .active)) then
          ({ db.consume (fun challenge => challenge.id = challengeId &&
              Authenticates now challenge) now with
              passkeyCredentials := db.passkeyCredentials.modify
                (fun row => row.id = passkey.id && Usable passkey row) fun row =>
                  { row with credentialJson := passkey.credentialJson, lastUsedAt := some now }
              authSessions := sessions
              accounts := db.accounts.modify
                (fun row => row.id = passkey.accountId && row.status = .active)
                (authenticated now) },
            (db.accounts.find? passkey.accountId).map fun account =>
              some ⟨authenticated now account, session, { passkey with lastUsedAt := some now }⟩)
        else (db, none) := by
  obtain ⟨sessions, hinsert⟩ : ∃ sessions, db.authSessions.insert? session = some sessions := by
    rw [← Option.isSome_iff_exists, Option.isSome_iff_ne_none, ne_eq,
      KeyedTable.insert?_eq_none_iff, hfresh]
    exact Bool.false_ne_true
  refine ⟨sessions, ?_⟩
  have hconsumable : (fun challenge : AuthChallenge => decide (challenge.id = challengeId) &&
      decide (challenge.purpose = .passkeyAuthentication) && challenge.consumedAt.isNone &&
        decide (now < challenge.expiresAt)) =
      fun challenge => decide (challenge.id = challengeId) && Authenticates now challenge := by
    funext challenge
    simp only [Authenticates, Bool.and_assoc]
  have husable : (fun row : PasskeyCredential => decide (row.id = passkey.id) &&
      decide (row.credentialId = passkey.credentialId) &&
        decide (row.accountId = passkey.accountId) && row.revokedAt.isNone) =
      fun row => decide (row.id = passkey.id) && Usable passkey row := by
    funext row
    simp only [Usable, Bool.and_assoc]
    congr 1
    rw [Bool.and_comm, Bool.and_assoc]
  unfold CeremonyCall.onSqlx
  simp only [CeremonyCall.sqlx, IdentityDatabase.completePasskeySignIn]
  rw [if_neg (not_not.mpr howner)]
  simp only [hconsumable, husable, affected_eq_zero_iff]
  cases haccount : db.accounts.find? passkey.accountId with
  | none => simp [CeremonyCall.accepted]
  | some account =>
      cases hstatus : decide (account.status = .active) with
      | false =>
          rw [decide_eq_false_iff_not] at hstatus
          simp [CeremonyCall.accepted, Option.filter, hstatus]
      | true =>
          rw [decide_eq_true_eq] at hstatus
          cases hchallenge : (db.authChallenges.find? challengeId).any (Authenticates now) with
          | false => simp [CeremonyCall.accepted, Option.filter, hstatus]
          | true =>
              cases hpasskey : (db.passkeyCredentials.find? passkey.id).any (Usable passkey) with
              | false => simp [CeremonyCall.accepted, Option.filter, hstatus]
              | true =>
                  have hexists : (db.accounts.find? session.accountId).isSome := by
                    simp [← howner, haccount]
                  simp [CeremonyCall.accepted, Option.filter, hstatus, bind, Except.bind,
                    IdentityDatabase.insertSession, IdentityDatabase.consume, hexists, hkey,
                    hinsert]
                  exact ⟨rfl, by simp [authenticated, hstatus]⟩

theorem profile_signIn (challengeId : ChallengeId) (passkey : PasskeyCredential)
    (session : AuthSession) (now : Time) (table : IdentityTable) :
    applyAll (DynamoIdentity.passkeySignInWrites challengeId passkey session now) table
        (.profile passkey.accountId) =
      (table (.profile passkey.accountId)).map (authenticated now) := by
  have hmem : DynamoIdentity.updateAccount passkey.accountId now ∈
      DynamoIdentity.passkeySignInWrites challengeId passkey session now := by
    simp [DynamoIdentity.passkeySignInWrites]
  exact applyAll_of_mem (nodup_keys_signIn challengeId passkey session now) hmem table

theorem exec_passkeySignIn (challengeId : ChallengeId) {passkey : PasskeyCredential}
    {session : AuthSession} (now : Time) (howner : passkey.accountId = session.accountId)
    (table : IdentityTable) :
    (DynamoIdentity.completePasskeySignIn challengeId passkey session now).exec
        (serveAlone queried) table =
      if (DynamoIdentity.passkeySignInWrites challengeId passkey session now).all fun write =>
          write.condition (table write.key) then
        (applyAll (DynamoIdentity.passkeySignInWrites challengeId passkey session now) table,
          .ok ((table (.profile passkey.accountId)).map fun account =>
            ⟨authenticated now account, session, { passkey with lastUsedAt := some now }⟩))
      else (table, .ok none) := by
  unfold DynamoIdentity.completePasskeySignIn
  rw [if_neg (not_not.mpr howner), exec_transactRefusable]
  split
  next hholds =>
    have hprofile : (table (.profile passkey.accountId)).any
        (fun account => account.status = .active) = true :=
      List.all_eq_true.mp hholds (DynamoIdentity.updateAccount passkey.accountId now)
        (by simp [DynamoIdentity.passkeySignInWrites])
    obtain ⟨account, haccount, _⟩ := (Option.any_eq_true ..).mp hprofile
    simp [DynamoIdentity.accountById, DynamoIdentity.getItem, Program.exec_request, serveAlone,
      Program.ofExcept, profile_signIn, haccount]
  next => rfl

theorem agrees_completePasskeySignIn (hsame : SamePasskeys lookupDigest now db table)
    (challengeId : ChallengeId) {passkey : PasskeyCredential} {session : AuthSession}
    (hkey : session.apiKeyId = none) (hdb : db.authSessions.find? session.id = none)
    (htable : table (.session session.accountId session.id) = none) :
    Agrees lookupDigest queried now db table
      (.completePasskeySignIn challengeId passkey session now) := by
  by_cases howner : passkey.accountId ≠ session.accountId
  · unfold Agrees CeremonyCall.onSqlx CeremonyCall.onDynamo
    simp only [CeremonyCall.sqlx, CeremonyCall.dynamo, IdentityDatabase.completePasskeySignIn,
      DynamoIdentity.completePasskeySignIn, if_pos howner, Program.exec_fault]
    exact ⟨trivial, hsame⟩
  rw [not_not] at howner
  obtain ⟨sessions, hsqlx⟩ := onSqlx_signIn db challengeId now howner hkey hdb
  have hready := signIn_ready hsame challengeId passkey htable
  unfold Agrees
  rw [hsqlx]
  unfold CeremonyCall.onDynamo
  simp only [CeremonyCall.dynamo, exec_passkeySignIn challengeId now howner, hready]
  split
  next hholds =>
    have hactive := hholds
    rw [← hready, List.all_eq_true] at hholds
    simp only [Bool.and_eq_true] at hactive
    obtain ⟨account, haccount, hstatus⟩ := (Option.any_eq_true ..).mp hactive.2.2
    have hread : table (.profile passkey.accountId) = some account := by
      rw [← hsame.accounts, haccount]
    have hkeys := nodup_keys_signIn challengeId passkey session now
    have hkept : ∀ key : IdentityKey, key ≠ .challenge challengeId →
        key ≠ .passkey passkey.accountId passkey.id →
        key ≠ .session session.accountId session.id → key ≠ .profile passkey.accountId →
        applyAll (DynamoIdentity.passkeySignInWrites challengeId passkey session now) table key =
          table key := by
      intro key hchallenge hpasskey hsession hprofile
      apply applyAll_of_not_mem
      simp [DynamoIdentity.passkeySignInWrites, Write.update, DynamoIdentity.sessionPut,
        Write.putNew, Write.putIf, DynamoIdentity.updateAccount, hchallenge, hpasskey, hsession,
        hprofile]
    refine ⟨by simp [haccount, hread, CeremonyCall.accepted], ?_, ?_, ?_, ?_⟩
    · intro accountId
      refine Eq.trans (AccountTable.find?_modify db.accounts _ (authenticated now) (fun _ => rfl)
        (fun _ => rfl) (fun _ => rfl) accountId) ?_
      change _ = applyAll (DynamoIdentity.passkeySignInWrites challengeId passkey session now) table
        (.profile accountId)
      by_cases hid : accountId = passkey.accountId
      · subst hid
        have hkey := KeyedTable.key_of_find? haccount
        simp [profile_signIn, haccount, hread, hkey, of_decide_eq_true hstatus]
      · rw [hkept _ (by simp) (by simp) (by simp) (by simpa using hid), ← hsame.accounts]
        cases hfound : db.accounts.find? accountId with
        | none => rfl
        | some other =>
            have hkey : other.id = accountId := KeyedTable.key_of_find? hfound
            simp [hkey, hid]
    · intro id
      refine consumed_challenges hsame hkeys List.mem_cons_self (hholds _ List.mem_cons_self)
        ?_ ?_ id
      · intro challenge hauthenticates
        simp only [Bool.and_eq_true, decide_eq_true_eq] at hauthenticates
        exact hauthenticates.2
      · intro other hne
        exact hkept _ (by simpa using hne) (by simp) (by simp) (by simp)
    · intro accountId passkeyId
      have howned : ∀ row, Usable passkey row = true → row.accountId = passkey.accountId := by
        intro row husable
        simp only [Usable, Bool.and_eq_true, decide_eq_true_eq] at husable
        exact husable.1
      have hmem : Write.update (.passkey passkey.accountId passkey.id)
          (fun row : PasskeyCredential =>
            row.revokedAt.isNone && row.credentialId = passkey.credentialId)
          (fun row => { row with
            credentialJson := passkey.credentialJson
            lastUsedAt := some now }) ∈
              DynamoIdentity.passkeySignInWrites challengeId passkey session now :=
        List.mem_cons_of_mem _ List.mem_cons_self
      obtain ⟨row, hrow, husable⟩ := (Option.any_eq_true ..).mp hactive.2.1
      have hstored : table (.passkey passkey.accountId passkey.id) = some row := by
        rw [← hsame.passkeys, hrow, Option.filter_some, if_pos (by simpa using howned row husable)]
      have hupdated : applyAll (DynamoIdentity.passkeySignInWrites challengeId passkey session now)
          table (.passkey passkey.accountId passkey.id) =
            (table (.passkey passkey.accountId passkey.id)).map fun row =>
              if Usable passkey row then
                { row with
                  credentialJson := passkey.credentialJson
                  lastUsedAt := some now }
              else row := by
        refine (applyAll_of_mem hkeys hmem table).trans ?_
        change (table (.passkey passkey.accountId passkey.id)).map _ = _
        simp only [hstored, Option.map_some, husable, if_true]
      refine updated_passkeys hsame (f := fun row => { row with
          credentialJson := passkey.credentialJson
          lastUsedAt := some now })
        (fun _ => rfl) (fun _ => rfl) howned hupdated ?_ accountId passkeyId
      intro owner id hne
      exact hkept _ (by simp) (by simpa using hne) (by simp) (by simp)
    · exact hsame.lookups.signIn challengeId passkey session now
  next =>
    exact ⟨by simp [CeremonyCall.accepted], hsame⟩

end SamePasskeys

/-! ## Runs on both stores -/

/-- Both stores, and the latest time that was read. -/
structure Backends where
  since : Time
  db : IdentityDatabase
  table : IdentityTable

/-- What `AuthService` sees to: new identifiers are fresh, a challenge belongs
to an account that exists, and a browser session to no key. -/
inductive Admissible (now : Time) (db : IdentityDatabase) (table : IdentityTable) :
    CeremonyCall → Prop where
  | createChallenge (challenge : AuthChallenge)
      (hdb : db.authChallenges.find? challenge.id = none)
      (htable : table (.challenge challenge.id) = none)
      (howner : (challenge.accountId.all fun accountId =>
        (db.accounts.find? accountId).isSome) = true) :
      Admissible now db table (.createChallenge challenge)
  | completePasskeyRegistration (challengeId : ChallengeId) (passkey : PasskeyCredential)
      (hnew : passkey.revokedAt = none)
      (hfresh : db.passkeyCredentials.find? passkey.id = none) :
      Admissible now db table (.completePasskeyRegistration challengeId passkey now)
  | passkeyByCredentialId (credentialId : String) :
      Admissible now db table (.passkeyByCredentialId credentialId)
  | completePasskeySignIn (challengeId : ChallengeId) (passkey : PasskeyCredential)
      (session : AuthSession) (hkey : session.apiKeyId = none)
      (hdb : db.authSessions.find? session.id = none)
      (htable : table (.session session.accountId session.id) = none) :
      Admissible now db table (.completePasskeySignIn challengeId passkey session now)
  | revokePasskey (accountId : AccountId) (passkeyId : Uuid) :
      Admissible now db table (.revokePasskey accountId passkeyId now)

/-- What happens besides: accounts and sessions change, on both stores in the
same way, and each store removes expired challenges when it likes. -/
structure Drifts (now : Time) (before after : Backends) : Prop where
  accounts : ∀ accountId, after.db.accounts.find? accountId = after.table (.profile accountId)
  swept : ∀ challengeId, after.db.authChallenges.find? challengeId =
      before.db.authChallenges.find? challengeId ∨
    after.db.authChallenges.find? challengeId = none ∧
      ∀ challenge, before.db.authChallenges.find? challengeId = some challenge →
        challenge.expiresAt ≤ now
  expired : ∀ challengeId, after.table (.challenge challengeId) =
      before.table (.challenge challengeId) ∨
    after.table (.challenge challengeId) = none ∧
      ∀ challenge, before.table (.challenge challengeId) = some challenge →
        challenge.expiresAt ≤ now
  rows : after.db.passkeyCredentials = before.db.passkeyCredentials
  items : ∀ accountId passkeyId, after.table (.passkey accountId passkeyId) =
    before.table (.passkey accountId passkeyId)
  lookups : ∀ digest, after.table (.credential digest) = before.table (.credential digest)

/-- A call with what its caller learns from either store. -/
inductive BackendLabel where
  | call (call : CeremonyCall) (sqlx dynamo : Option call.Result)
  | drift

section Runs

variable (lookupDigest : String → String)
  (queried : IdentityTable → (IdentityKey → Bool) → List ((key : IdentityKey) × key.Item))

inductive Backends.Step : Backends → BackendLabel → Backends → Prop where
  | call (backends : Backends) (call : CeremonyCall) (now : Time) (hclock : backends.since ≤ now)
      (hadmissible : Admissible now backends.db backends.table call) :
      Step backends
        (.call call (call.onSqlx backends.db).2
          (call.onDynamo queried lookupDigest backends.table).2)
        ⟨now, (call.onSqlx backends.db).1, (call.onDynamo queried lookupDigest backends.table).1⟩
  | drift (before after : Backends) (hclock : before.since ≤ after.since)
      (hdrifts : Drifts after.since before after) : Step before .drift after

variable {lookupDigest queried}

theorem Admissible.agrees {now : Time} {db : IdentityDatabase} {table : IdentityTable}
    {call : CeremonyCall} (hadmissible : Admissible now db table call)
    (hsame : SamePasskeys lookupDigest now db table) (hdigest : Function.Injective lookupDigest) :
    SamePasskeys.Agrees lookupDigest queried now db table call := by
  cases hadmissible with
  | createChallenge challenge hdb htable howner =>
      exact hsame.agrees_createChallenge hdb htable howner
  | completePasskeyRegistration challengeId passkey hnew hfresh =>
      exact hsame.agrees_completePasskeyRegistration hdigest challengeId hnew hfresh
  | passkeyByCredentialId credentialId => exact hsame.agrees_passkeyByCredentialId credentialId
  | completePasskeySignIn challengeId passkey session hkey hdb htable =>
      exact hsame.agrees_completePasskeySignIn challengeId hkey hdb htable
  | revokePasskey accountId passkeyId =>
      exact hsame.agrees_revokePasskey hdigest accountId passkeyId now

/-- Nothing is left to compare of a challenge that has expired. -/
theorem filter_of_swept {now : Time} {before after : Option AuthChallenge}
    (hswept : after = before ∨ after = none ∧ ∀ challenge, before = some challenge →
      challenge.expiresAt ≤ now) :
    after.filter (fun challenge => now < challenge.expiresAt) =
      before.filter fun challenge => now < challenge.expiresAt := by
  cases hswept with
  | inl hsame => rw [hsame]
  | inr hgone =>
      rw [hgone.1]
      cases before with
      | none => rfl
      | some challenge =>
          have hexpired := hgone.2 challenge rfl
          simp [Option.filter, not_lt.mpr hexpired]

theorem Drifts.samePasskeys {before after : Backends} (hdrifts : Drifts after.since before after)
    (hsame : SamePasskeys lookupDigest after.since before.db before.table) :
    SamePasskeys lookupDigest after.since after.db after.table where
  accounts := hdrifts.accounts
  challenges := fun challengeId => by
    rw [filter_of_swept (hdrifts.swept challengeId), filter_of_swept (hdrifts.expired challengeId)]
    exact hsame.challenges challengeId
  passkeys := fun accountId passkeyId => by
    rw [hdrifts.rows, hdrifts.items]
    exact hsame.passkeys accountId passkeyId
  lookups := fun credentialId accountId passkeyId => by
    unfold Carries
    rw [hdrifts.lookups, hdrifts.items]
    exact hsame.lookups credentialId accountId passkeyId

theorem samePasskeys_of_step (hdigest : Function.Injective lookupDigest)
    {before after : Backends} {label : BackendLabel}
    (hsame : SamePasskeys lookupDigest before.since before.db before.table)
    (hstep : Backends.Step lookupDigest queried before label after) :
    SamePasskeys lookupDigest after.since after.db after.table := by
  cases hstep with
  | call call now hclock hadmissible =>
      exact (hadmissible.agrees (hsame.later hclock) hdigest).2
  | drift _ hclock hdrifts => exact hdrifts.samePasskeys (hsame.later hclock)

/-- Two stores that hold the same passkeys are given the same ceremonies, one
after another at times that do not go back, while accounts change and either
removes expired challenges when it likes.  Every call is accepted by one store
exactly if it is accepted by the other, with the same result, and in the end
they hold the same passkeys. -/
theorem passkey_backends_agree (hdigest : Function.Injective lookupDigest) {start finish : Backends}
    (hsame : SamePasskeys lookupDigest start.since start.db start.table)
    {labels : List BackendLabel}
    (hrun : Run (Backends.Step lookupDigest queried) start labels finish) :
    (∀ call sqlx dynamo, BackendLabel.call call sqlx dynamo ∈ labels → sqlx = dynamo) ∧
      SamePasskeys lookupDigest finish.since finish.db finish.table := by
  induction labels generalizing start with
  | nil =>
      cases hrun
      exact ⟨fun _ _ _ hmem => absurd hmem List.not_mem_nil, hsame⟩
  | cons label rest ih =>
      obtain ⟨middle, hstep, hrest⟩ := run_cons.mp hrun
      obtain ⟨hagree, hfinish⟩ := ih (samePasskeys_of_step hdigest hsame hstep) hrest
      refine ⟨?_, hfinish⟩
      intro call sqlx dynamo hmem
      cases List.mem_cons.mp hmem with
      | inl hfirst =>
          subst hfirst
          cases hstep with
          | call call now hclock hadmissible =>
              exact (hadmissible.agrees (hsame.later hclock) hdigest).1
      | inr hlater => exact hagree call sqlx dynamo hlater

end Runs

/-- An account that has begun to register a passkey, on both stores. -/
def sampleBackends : Backends :=
  let account : Account := ⟨1, "a@b.c", "a@b.c", 0, "handle", .active, 0, 0, 0⟩
  let challenge : AuthChallenge :=
    ⟨2, .passkeyRegistration, some 1, none, none, none, some "state", 0, 0, minutes 10, none⟩
  let db : IdentityDatabase :=
    { accounts := ⟨⟨[account], by simp⟩, by simp, by simp⟩
      authChallenges := ⟨[challenge], by simp⟩
      authSessions := .empty
      apiKeys := .empty
      passkeyCredentials := .empty }
  let table : IdentityTable := fun
    | .profile accountId => db.accounts.find? accountId
    | .challenge challengeId => db.authChallenges.find? challengeId
    | _ => none
  ⟨0, db, table⟩

def samplePasskey : PasskeyCredential := ⟨3, "credential", 1, "json", "label", 5, none, none⟩

theorem passkey_backends_agree_sample :
    ((CeremonyCall.completePasskeyRegistration 2 samplePasskey 5).onDynamo (fun _ _ => []) id
      sampleBackends.table).2 = some true := by
  have hsame : SamePasskeys id sampleBackends.since sampleBackends.db sampleBackends.table := by
    refine ⟨fun _ => rfl, fun _ => rfl, fun _ _ => rfl, ?_⟩
    intro credentialId accountId passkeyId
    simp [Carries, sampleBackends]
  have hstep : Backends.Step id (fun _ _ => []) sampleBackends _ _ :=
    .call sampleBackends (.completePasskeyRegistration 2 samplePasskey 5) 5 (by decide)
      (.completePasskeyRegistration 2 samplePasskey rfl rfl)
  have hagree := (passkey_backends_agree Function.injective_id hsame
    (run_singleton.mpr hstep)).1 _ _ _ List.mem_cons_self
  rw [← hagree]
  rfl

end SeizaServer
