import SeizaServer.ApiKeyUse
import SeizaServer.DynamoIdentitySystem
import SeizaServer.SqlxKeyRevocation

/-!
# Revoking an API key

On DynamoDB a revocation is an update of the key, a query and one update for
each session.  The update alone is the cut-off, as on the SQLx store.
-/

namespace SeizaServer

open Interaction Transition TransactionalStore

/-! ## What the writes do to sessions and keys -/

/-- A write that puts no session and puts or deletes no key. -/
inductive KeyWrite : IdentityWrite → Prop where
  | other (write : IdentityWrite) (hsession : ∀ accountId sessionId,
      write.key ≠ .session accountId sessionId)
      (hapiKey : ∀ accountId keyId, write.key ≠ .apiKey accountId keyId) : KeyWrite write
  | touchedKey (accountId : AccountId) (keyId : ApiKeyId) (lastUsedAt : Time) :
      KeyWrite (DynamoIdentity.touchApiKeyWrite accountId keyId lastUsedAt)
  | revokedKey (accountId : AccountId) (keyId : ApiKeyId) (revokedAt : Time) :
      KeyWrite (DynamoIdentity.revokeApiKeyWrite accountId keyId revokedAt)
  | touchedSession (accountId : AccountId) (sessionId : SessionId) (lastSeenAt expiresAt : Time) :
      KeyWrite (DynamoIdentity.touchSessionWrite accountId sessionId lastSeenAt expiresAt)
  | revokedSession (accountId : AccountId) (sessionId : SessionId) (revokedAt : Time) :
      KeyWrite (DynamoIdentity.revokeSessionWrite accountId sessionId revokedAt)
  | deletedSession (accountId : AccountId) (sessionId : SessionId) :
      KeyWrite (.delete (.session accountId sessionId))

/-- A session with an identifier that the process drew and has not used. -/
structure DynamoWorld.Fresh (pid : ℕ) (world : DynamoWorld) (sessionId : SessionId) : Prop where
  drawn : (pid, sessionId) ∈ world.drawn
  unused : ∀ accountId, world.minted accountId sessionId = none

/-- What a process may write. -/
def DynamoWorld.AllowsWrite (pid : ℕ) (world : DynamoWorld) (write : IdentityWrite) : Prop :=
  KeyWrite write ∨ ∃ session, write = DynamoIdentity.sessionPut session ∧
    world.Fresh pid session.id

def DynamoWorld.Allows (pid : ℕ) (world : DynamoWorld) : BackendRequest → Prop
  | .store r => ∀ write ∈ r.writes, world.AllowsWrite pid write
  | .service _ => True

/-- What holds of the world throughout every run. -/
structure DynamoWorld.Sound (world : DynamoWorld) : Prop where
  drawn : (world.drawn.map Prod.snd).Nodup
  owned : ∀ accountId sessionId first, world.minted accountId sessionId = some first →
    ∃ pid, (pid, sessionId) ∈ world.drawn
  history : ∀ accountId sessionId session,
    world.table (.session accountId sessionId) = some session →
      ∃ first, world.minted accountId sessionId = some first ∧
        session.apiKeyId = first.apiKeyId ∧ session.id = sessionId

/-- What a process relies on: the others keep away from its identifiers. -/
structure DynamoWorld.Respects (pid : ℕ) (before after : DynamoWorld) : Prop where
  drawn : ∀ entry ∈ before.drawn, entry ∈ after.drawn
  minted : ∀ accountId sessionId first, before.minted accountId sessionId = some first →
    after.minted accountId sessionId = some first
  fresh : ∀ sessionId, before.Fresh pid sessionId → after.Fresh pid sessionId

/-- What a step leaves to everybody, its own process included. -/
structure DynamoWorld.Grows (before after : DynamoWorld) : Prop where
  drawn : ∀ entry ∈ before.drawn, entry ∈ after.drawn
  minted : ∀ accountId sessionId first, before.minted accountId sessionId = some first →
    after.minted accountId sessionId = some first

/-- The key is not there, or revoked. -/
def KeyDeadItem (accountId : AccountId) (keyId : ApiKeyId) (table : IdentityTable) : Prop :=
  ∀ key, table (.apiKey accountId keyId) = some key → key.revokedAt ≠ none

namespace DynamoWorld

variable {pid : ℕ} {world before after : DynamoWorld} {table : IdentityTable}
  {accountId : AccountId} {sessionId : SessionId} {keyId : ApiKeyId}

theorem Respects.refl (pid : ℕ) (world : DynamoWorld) : Respects pid world world :=
  ⟨fun _ hmem => hmem, fun _ _ _ hminted => hminted, fun _ hfresh => hfresh⟩

theorem Respects.trans {middle : DynamoWorld} (hfirst : Respects pid before middle)
    (hsecond : Respects pid middle after) : Respects pid before after := by
  constructor
  · exact fun entry hmem => hsecond.drawn entry (hfirst.drawn entry hmem)
  · exact fun account id first hminted =>
      hsecond.minted account id first (hfirst.minted account id first hminted)
  · exact fun id hfresh => hsecond.fresh id (hfirst.fresh id hfresh)

/-- Where a session item comes from after a request. -/
inductive ItemOrigin (pid : ℕ) (world : DynamoWorld) (accountId : AccountId)
    (sessionId : SessionId) (session : AuthSession) : Prop where
  | stayed (old : AuthSession) (hold : world.table (.session accountId sessionId) = some old)
      (hkey : session.apiKeyId = old.apiKeyId) (hid : session.id = old.id) :
      ItemOrigin pid world accountId sessionId session
  | put (hfresh : world.Fresh pid sessionId) (hid : session.id = sessionId) :
      ItemOrigin pid world accountId sessionId session

theorem session_origin {r : IdentityRequest} {reply : StoreRequest.Response Fault r}
    (hallows : world.Allows pid (.store r))
    (hserves : TransactionalStore.Serves world.table r reply table) {session : AuthSession}
    (hfind : table (.session accountId sessionId) = some session) :
    ItemOrigin pid world accountId sessionId session := by
  cases hserves.item (.session accountId sessionId) with
  | inl hsame =>
      rw [hsame] at hfind
      exact .stayed session hfind rfl rfl
  | inr hwritten =>
      obtain ⟨write, hmem, hkey, _, hafter⟩ := hwritten
      have hupdated : ∀ f : AuthSession → AuthSession, (∀ row, (f row).apiKeyId = row.apiKeyId) →
          (∀ row, (f row).id = row.id) → table (.session accountId sessionId) =
            (world.table (.session accountId sessionId)).map f →
              ItemOrigin pid world accountId sessionId session := by
        intro f hkept hid hsame
        rw [hsame] at hfind
        obtain ⟨old, hold, hrow⟩ := Option.map_eq_some_iff.mp hfind
        exact .stayed old hold (by rw [← hrow, hkept]) (by rw [← hrow, hid])
      cases hallows write hmem with
      | inl hplain =>
          cases hplain with
          | other _ hsession hapiKey => exact absurd hkey (hsession accountId sessionId)
          | touchedKey account key lastUsedAt => cases hkey
          | revokedKey account key revokedAt => cases hkey
          | touchedSession account id lastSeenAt expiresAt =>
              cases hkey
              exact hupdated (fun row =>
                { row with lastSeenAt := lastSeenAt, expiresAt := expiresAt }) (fun _ => rfl)
                (fun _ => rfl) hafter
          | revokedSession account id revokedAt =>
              cases hkey
              exact hupdated (fun row => { row with revokedAt := some revokedAt })
                (fun _ => rfl) (fun _ => rfl) hafter
          | deletedSession account id =>
              cases hkey
              rw [hfind] at hafter
              cases hafter
      | inr hput =>
          obtain ⟨newSession, hsession, hfresh⟩ := hput
          subst hsession
          cases hkey
          rw [hfind] at hafter
          exact .put hfresh (congrArg AuthSession.id (Option.some.inj hafter))

theorem keyDead_served {r : IdentityRequest} {reply : StoreRequest.Response Fault r}
    (hallows : world.Allows pid (.store r))
    (hserves : TransactionalStore.Serves world.table r reply table)
    (hdead : KeyDeadItem accountId keyId world.table) : KeyDeadItem accountId keyId table := by
  intro key hfind
  cases hserves.item (.apiKey accountId keyId) with
  | inl hsame =>
      rw [hsame] at hfind
      exact hdead key hfind
  | inr hwritten =>
      obtain ⟨write, hmem, hkey, _, hafter⟩ := hwritten
      cases hallows write hmem with
      | inl hplain =>
          cases hplain with
          | other _ hsession hapiKey => exact absurd hkey (hapiKey accountId keyId)
          | touchedKey account id lastUsedAt =>
              cases hkey
              rw [hfind] at hafter
              obtain ⟨old, hold, hrow⟩ := Option.map_eq_some_iff.mp hafter.symm
              rw [← hrow]
              exact hdead old hold
          | revokedKey account id revokedAt =>
              cases hkey
              rw [hfind] at hafter
              obtain ⟨old, hold, hrow⟩ := Option.map_eq_some_iff.mp hafter.symm
              rw [← hrow]
              nofun
          | touchedSession account id lastSeenAt expiresAt => cases hkey
          | revokedSession account id revokedAt => cases hkey
          | deletedSession account id => cases hkey
      | inr hput =>
          obtain ⟨newSession, hsession, hfresh⟩ := hput
          subst hsession
          cases hkey

theorem Sound.minted_of_written (hsound : world.Sound)
    (hold : ∀ session, table (.session accountId sessionId) = some session →
      ItemOrigin pid world accountId sessionId session) {first : AuthSession}
    (hfirst : (world.written table).minted accountId sessionId = some first) :
    world.minted accountId sessionId = some first ∨
      (world.Fresh pid sessionId ∧ table (.session accountId sessionId) = some first) := by
  cases hminted : world.minted accountId sessionId with
  | some other =>
      left
      change (world.minted accountId sessionId).or _ = _ at hfirst
      rw [hminted, Option.some_or] at hfirst
      exact hfirst
  | none =>
      change (world.minted accountId sessionId).or _ = _ at hfirst
      rw [hminted, Option.none_or] at hfirst
      cases hold first hfirst with
      | stayed old hstored hkey _ =>
          obtain ⟨earlier, hearlier, _⟩ := hsound.history accountId sessionId old hstored
          rw [hminted] at hearlier
          cases hearlier
      | put hfresh _ => exact .inr ⟨hfresh, hfirst⟩

theorem Sound.served (hsound : world.Sound) {r : BackendRequest} {reply : r.Response}
    (hallows : world.Allows pid r) (hserves : Serves pid world r reply after) :
    after.Sound ∧ (∀ other, pid ≠ other → Respects other world after) ∧ Grows world after := by
  have hunchanged : after = world →
      after.Sound ∧ (∀ other, pid ≠ other → Respects other world after) ∧ Grows world after := by
    intro hsame
    subst hsame
    exact ⟨hsound, fun other _ => .refl other _, fun _ hmem => hmem, fun _ _ _ hminted => hminted⟩
  cases r with
  | service r =>
      cases r with
      | utcNow => exact hunchanged hserves.2
      | nowV7 =>
          obtain ⟨hnew, hafter⟩ := hserves
          subst hafter
          refine ⟨?_, ?_, fun _ hmem => List.mem_cons_of_mem _ hmem, fun _ _ _ hminted => hminted⟩
          · refine { hsound with drawn := ?_, owned := ?_ }
            · rw [List.map_cons, List.nodup_cons]
              refine ⟨?_, hsound.drawn⟩
              intro hmem
              obtain ⟨entry, hentry, hid⟩ := List.mem_map.mp hmem
              exact hnew entry hentry hid
            · intro account id first hminted
              obtain ⟨owner, howner⟩ := hsound.owned account id first hminted
              exact ⟨owner, List.mem_cons_of_mem _ howner⟩
          · intro other hother
            exact ⟨fun _ hmem => List.mem_cons_of_mem _ hmem, fun _ _ _ hminted => hminted,
              fun _ hfresh => ⟨List.mem_cons_of_mem _ hfresh.drawn, hfresh.unused⟩⟩
      | randomSecret => exact hunchanged hserves
      | randomCode => exact hunchanged hserves
      | checkEmailSend source email => exact hunchanged hserves
      | sendSignIn email => exact hunchanged hserves
      | repository call => exact hserves.elim
  | store r =>
      obtain ⟨table, hserved, hafter⟩ := hserves
      subst hafter
      have horigin : ∀ account id session, table (.session account id) = some session →
          ItemOrigin pid world account id session :=
        fun account id session hfind => session_origin hallows hserved hfind
      have hkept : ∀ account id first, world.minted account id = some first →
          (world.written table).minted account id = some first := by
        intro account id first hminted
        change (world.minted account id).or _ = _
        rw [hminted, Option.some_or]
      refine ⟨?_, ?_, fun _ hmem => hmem, hkept⟩
      · constructor
        · exact hsound.drawn
        · intro account id first hminted
          cases hsound.minted_of_written (horigin account id) hminted with
          | inl hold => exact hsound.owned account id first hold
          | inr hput => exact ⟨pid, hput.1.drawn⟩
        · intro account id session hfind
          cases horigin account id session hfind with
          | stayed old hold hkey hid =>
              obtain ⟨first, hfirst, hminted, hsame⟩ := hsound.history account id old hold
              exact ⟨first, hkept account id first hfirst, hkey.trans hminted, hid.trans hsame⟩
          | put hfresh hid =>
              refine ⟨session, ?_, rfl, hid⟩
              change (world.minted account id).or (table (.session account id)) = _
              rw [hfresh.unused account, Option.none_or]
              exact hfind
      · intro other hother
        refine ⟨fun _ hmem => hmem, hkept, ?_⟩
        intro id hfresh
        refine ⟨hfresh.drawn, ?_⟩
        intro account
        cases hminted : (world.written table).minted account id with
        | none => rfl
        | some first =>
            exfalso
            cases hsound.minted_of_written (horigin account id) hminted with
            | inl hold =>
                rw [hfresh.unused account] at hold
                cases hold
            | inr hput =>
                have hsame := List.inj_on_of_nodup_map hsound.drawn hput.1.drawn hfresh.drawn rfl
                exact hother (Prod.ext_iff.mp hsame).1

theorem Sound.drifts (hsound : before.Sound) (hdrifts : Drifts before after) :
    after.Sound ∧ (∀ pid, Respects pid before after) ∧
      (KeyDeadItem accountId keyId before.table → KeyDeadItem accountId keyId after.table) := by
  cases hdrifts with
  | tick clock hclock =>
      exact ⟨⟨hsound.drawn, hsound.owned, hsound.history⟩,
        fun pid => ⟨fun _ hmem => hmem, fun _ _ _ hminted => hminted,
          fun _ hfresh => ⟨hfresh.drawn, hfresh.unused⟩⟩, fun hdead => hdead⟩
  | expire table htable =>
      refine ⟨⟨hsound.drawn, hsound.owned, ?_⟩,
        fun pid => ⟨fun _ hmem => hmem, fun _ _ _ hminted => hminted,
          fun _ hfresh => ⟨hfresh.drawn, hfresh.unused⟩⟩, ?_⟩
      · intro account id session hfind
        change table (.session account id) = some session at hfind
        cases htable (.session account id) with
        | inl hsame =>
            rw [hsame] at hfind
            exact hsound.history account id session hfind
        | inr hgone =>
            rw [hgone] at hfind
            cases hfind
      · intro hdead key hfind
        change table (.apiKey accountId keyId) = some key at hfind
        cases htable (.apiKey accountId keyId) with
        | inl hsame =>
            rw [hsame] at hfind
            exact hdead key hfind
        | inr hgone =>
            rw [hgone] at hfind
            cases hfind
  | flip account status =>
      refine ⟨⟨hsound.drawn, hsound.owned, ?_⟩,
        fun pid => ⟨fun _ hmem => hmem, fun _ _ _ hminted => hminted,
          fun _ hfresh => ⟨hfresh.drawn, hfresh.unused⟩⟩, ?_⟩
      · intro owner id session hfind
        dsimp only at hfind
        rw [Function.update_of_ne (by nofun)] at hfind
        exact hsound.history owner id session hfind
      · intro hdead key hfind
        dsimp only at hfind
        rw [Function.update_of_ne (by nofun)] at hfind
        exact hdead key hfind

end DynamoWorld

def keyDiscipline (scope : DynamoScope) : Discipline (dynamoIdentitySystem scope) where
  invariant := DynamoWorld.Sound
  rely := DynamoWorld.Respects
  guarantee := fun pid before after =>
    (∀ other, pid ≠ other → DynamoWorld.Respects other before after) ∧
      DynamoWorld.Grows before after
  guard := DynamoWorld.Allows
  post := fun _ _ _ => True
  rely_refl := DynamoWorld.Respects.refl
  rely_trans := fun _ _ _ _ hfirst hsecond => hfirst.trans hsecond
  compatible := fun _ other _ _ hother hguarantee => hguarantee.1 other hother
  environment := by
    intro before after hsound hdrifts
    have hmoved := @DynamoWorld.Sound.drifts before after 0 0 hsound hdrifts
    exact ⟨hmoved.1, hmoved.2.1⟩
  halts := by
    intro pid before after hsound hhalts
    have hsame : after = before := hhalts
    subst hsame
    exact ⟨hsound, fun other _ => .refl other _⟩

/-! ## What the programs write -/

/-- A request whose writes all leave keys in place and put no session. -/
def PlainStore (r : IdentityRequest) : Prop := ∀ write ∈ r.writes, KeyWrite write

theorem plainStore_of_read {r : IdentityRequest} (hread : r.writes = []) : PlainStore r := by
  intro write hmem
  rw [hread] at hmem
  cases hmem

def PlainBackend : BackendRequest → Prop
  | .store r => PlainStore r
  | .service _ => True

/-- A request of the service that inserts no session. -/
def KeyPlain : AuthRequest → Prop
  | .repository call => call.newSession? = none
  | _ => True

theorem keyPlain_of_plain (r : AuthRequest) (hplain : r.Plain) : KeyPlain r := by
  cases r with
  | repository call =>
      cases call with
      | touchSession accountId sessionId lastSeenAt expiresAt => exact hplain.elim
      | purgeExpired now => exact hplain.elim
      | _ => exact hplain
  | _ => trivial

section Issues

open Program

variable {lookupDigest : String → String}

theorem issues_getItem (key : IdentityKey) :
    (DynamoIdentity.getItem key).Issues PlainStore :=
  ⟨plainStore_of_read rfl, issues_ofExcept⟩

theorem issues_writeItem {write : IdentityWrite} (hwrite : KeyWrite write) :
    (DynamoIdentity.writeItem write).Issues PlainStore := by
  refine ⟨?_, issues_ofExcept⟩
  intro other hmem
  rw [List.mem_singleton.mp hmem]
  exact hwrite

theorem issues_listSessions (accountId : AccountId) :
    (DynamoIdentity.listSessions accountId).Issues PlainStore := by
  refine ⟨plainStore_of_read rfl, fun queried => ?_⟩
  exact (issues_ofExcept queried).bind fun _ => trivial

theorem issues_revokeSession (accountId : AccountId) (sessionId : SessionId) (revokedAt : Time) :
    (DynamoIdentity.revokeSession accountId sessionId revokedAt).Issues PlainStore :=
  (issues_writeItem (.revokedSession accountId sessionId revokedAt)).bind fun _ => trivial

theorem issues_revokeEach (accountId : AccountId) (revokedAt : Time) (sessions : List AuthSession) :
    (DynamoIdentity.revokeEach accountId revokedAt sessions).Issues PlainStore := by
  induction sessions with
  | nil => trivial
  | cons session rest ih =>
      exact (issues_revokeSession accountId session.id revokedAt).bind fun _ => ih.bind fun _ => trivial

theorem issues_revokeMinted (accountId : AccountId) (keyId : ApiKeyId) (revokedAt : Time)
    (sessions : List AuthSession) :
    (DynamoIdentity.revokeMinted accountId keyId revokedAt sessions).Issues PlainStore := by
  induction sessions with
  | nil => trivial
  | cons session rest ih =>
      unfold DynamoIdentity.revokeMinted
      split_ifs
      · exact (issues_revokeSession accountId session.id revokedAt).bind fun _ => ih
      · exact ih

theorem issues_createEmailChallengeAttempts (challenge : AuthChallenge) (emailLookup : String)
    (maxLive attempts : ℕ) :
    (DynamoIdentity.createEmailChallengeAttempts lookupDigest challenge emailLookup maxLive
      attempts).Issues PlainStore := by
  induction attempts with
  | zero => trivial
  | succ attempts ih =>
      apply (issues_getItem _).bind
      intro tracker
      refine ⟨?_, fun outcome => ?_⟩
      · intro write hmem
        have hkey : (∃ id, write.key = .challenge id) ∨ ∃ digest, write.key = .tracker digest := by
          change write ∈ _ :: _ :: _ at hmem
          rw [List.mem_cons, List.mem_cons, List.mem_map] at hmem
          obtain hput | htracker | ⟨id, _, hdelete⟩ := hmem
          · rw [hput]
            exact .inl ⟨_, rfl⟩
          · rw [htracker]
            exact .inr ⟨_, rfl⟩
          · rw [← hdelete]
            exact .inl ⟨_, rfl⟩
        apply KeyWrite.other
        · intro accountId sessionId hsame
          rw [hsame] at hkey
          simp at hkey
        · intro accountId keyId hsame
          rw [hsame] at hkey
          simp at hkey
      · cases outcome with
        | committed => trivial
        | canceled reasons => exact ih
        | failed cause => trivial

theorem issues_program {call : IdentityCall} (hnew : call.newSession? = none) :
    (DynamoIdentity.program lookupDigest call).Issues PlainStore := by
  cases call with
  | accountById accountId => exact issues_getItem _
  | challengeById challengeId => exact issues_getItem _
  | createEmailChallenge challenge maxLive =>
      change (DynamoIdentity.createEmailChallenge lookupDigest challenge maxLive).Issues PlainStore
      unfold DynamoIdentity.createEmailChallenge
      split_ifs
      · trivial
      · trivial
      · split
        · trivial
        · exact issues_createEmailChallengeAttempts _ _ _ _
  | recordChallengeFailure challengeId now maxAttempts =>
      refine (issues_writeItem (.other _ ?_ ?_)).bind fun _ => trivial
      · intro accountId sessionId hkey
        cases hkey
      · intro accountId keyId hkey
        cases hkey
  | completeEmailChallenge challengeId now maxAttempts newAccount newSession => cases hnew
  | createSession newSession => cases hnew
  | session accountId sessionId => exact issues_getItem _
  | listSessions accountId => exact issues_listSessions accountId
  | touchSession accountId sessionId lastSeenAt expiresAt =>
      exact (issues_writeItem (.touchedSession _ _ _ _)).bind fun _ => trivial
  | revokeSession accountId sessionId revokedAt => exact issues_revokeSession _ _ _
  | revokeAllSessions accountId revokedAt =>
      exact (issues_listSessions accountId).bind fun sessions => issues_revokeEach _ _ sessions
  | deleteSession accountId sessionId =>
      exact (issues_writeItem (.deletedSession _ _)).bind fun _ => trivial
  | passkeyByCredentialId credentialId =>
      apply (issues_getItem _).bind
      intro lookup
      cases lookup with
      | none => trivial
      | some lookup => exact issues_getItem _
  | completePasskeySignIn challengeId passkey newSession now => cases hnew
  | apiKey accountId keyId => exact issues_getItem _
  | touchApiKey accountId keyId lastUsedAt =>
      exact (issues_writeItem (.touchedKey _ _ _)).bind fun _ => trivial
  | revokeApiKey accountId keyId revokedAt =>
      apply (issues_writeItem (.revokedKey _ _ _)).bind
      intro written
      cases written with
      | none => trivial
      | some _ =>
          exact (issues_listSessions accountId).bind fun sessions => issues_revokeMinted _ _ _ sessions
  | purgeExpired now => trivial

theorem issues_handler (r : AuthRequest) (hplain : KeyPlain r) :
    (backendHandler lookupDigest r).Issues PlainBackend := by
  cases r with
  | repository call =>
      exact Issues.outcome (Issues.relay (fun _ hissued => hissued) (issues_program hplain))
  | _ => exact ⟨trivial, fun _ => trivial⟩

theorem issues_touch_keyPlain (session : AuthSession) (accountId : AccountId)
    (sessionId : SessionId) (now : Time) :
    (touch session accountId sessionId now).Issues KeyPlain := by
  unfold touch
  split_ifs
  · exact ⟨rfl, fun reply => (issues_internal reply).bind fun _ => trivial⟩
  · trivial

end Issues

/-- The calls that run beside revocations: all but the sign-ins. -/
def AuthCall.BesideRevocation : AuthCall → Prop
  | .completeEmail _ => False
  | .completePasskeyAuthentication .. => False
  | .repository call => call.newSession? = none
  | _ => True

theorem issues_keyPlain {authConfig : AuthConfig} {call : AuthCall} (hbeside : call.BesideRevocation)
    (hcreates : ∀ token, call ≠ .createAstrometrySession token) :
    (call.program authConfig).Issues KeyPlain := by
  cases call with
  | startEmail email source => exact (issues_startEmail _ _ _).mono keyPlain_of_plain
  | completeEmail credential => exact hbeside.elim
  | completePasskeyAuthentication challengeId assertion => exact hbeside.elim
  | authenticateBrowserSession token csrfCookie =>
      apply (issues_orInvalid _).bind
      intro parsed
      refine ⟨trivial, fun now => ?_⟩
      apply (issues_repository (by exact rfl)).bind
      intro found
      apply (issues_orInvalid _).bind
      intro session
      apply ((issues_activeAccount _).mono keyPlain_of_plain).bind
      intro account
      exact (issues_touch_keyPlain session _ _ _).bind fun _ => trivial
  | logout authenticated =>
      refine ⟨trivial, fun now => ?_⟩
      exact (issues_repository (by exact rfl)).bind fun _ => trivial
  | logoutAll authenticated => exact ⟨trivial, fun now => issues_repository (by exact rfl)⟩
  | authenticateApiKey token requiredScope =>
      exact (issues_authenticateApiKey _ _ _).mono keyPlain_of_plain
  | createAstrometrySession token => exact absurd rfl (hcreates token)
  | authenticateAstrometrySession token =>
      apply (issues_orInvalid _).bind
      intro parsed
      refine ⟨trivial, fun now => ?_⟩
      apply (issues_repository (by exact rfl)).bind
      intro found
      apply (issues_orInvalid _).bind
      intro session
      apply ((issues_activeAccount _).mono keyPlain_of_plain).bind
      intro account
      apply ((issues_mintingKeyWeight _ _ _).mono keyPlain_of_plain).bind
      intro queueWeight
      exact (issues_touch_keyPlain session _ _ _).bind fun _ => trivial
  | purgeExpired => exact ⟨trivial, fun now => issues_repository (by exact rfl)⟩
  | repository call => exact issues_repository hbeside

section Bodies

open Program

variable {scope : DynamoScope} {pid : ℕ} {world : DynamoWorld}

theorem allows_of_plainBackend (r : BackendRequest) (world : DynamoWorld)
    (hplain : PlainBackend r) : world.Allows pid r := by
  cases r with
  | service r => trivial
  | store r => exact fun write hmem => .inl (hplain write hmem)

theorem obeys_plainBackend {α : Type} {program : BackendProgram α}
    (hissues : program.Issues PlainBackend) :
    program.Obeys ((keyDiscipline scope).contract pid) (fun _ _ => True) world :=
  Obeys.of_issues allows_of_plainBackend
    (fun _ _ _ _ hsound hallows hserves => (hsound.served hallows hserves)) hissues

theorem obeys_expanded {α β : Type} {program : AuthProgram α} {f : α → AuthProgram β}
    (hsound : world.Sound) (hissues : program.Issues KeyPlain)
    (hnext : ∀ value later, later.Sound →
      ((f value).expand (backendHandler scope.lookupDigest)).Obeys
        ((keyDiscipline scope).contract pid) (fun _ _ => True) later) :
    ((program >>= f).expand (backendHandler scope.lookupDigest)).Obeys
      ((keyDiscipline scope).contract pid) (fun _ _ => True) world := by
  rw [expand_bind]
  exact (obeys_plainBackend (hissues.expand issues_handler)).bind hsound
    fun value later hlater _ => hnext value later hlater

/-- The transaction that creates a session with a fresh identifier. -/
theorem obeys_createSession {session : AuthSession} (hfresh : world.Fresh pid session.id) :
    (backendHandler scope.lookupDigest (.repository (.createSession session))).Obeys
      ((keyDiscipline scope).contract pid) (fun _ _ => True) world := by
  intro later hrespects hsound
  have hallows : later.Allows pid (.store (.transact
      [DynamoIdentity.activeAccountCheck session.accountId, DynamoIdentity.sessionPut session])) := by
    intro write hmem
    change write ∈ [_, _] at hmem
    rw [List.mem_cons, List.mem_singleton] at hmem
    cases hmem with
    | inl hcheck =>
        left
        rw [hcheck]
        apply KeyWrite.other
        · intro accountId sessionId hkey
          cases hkey
        · intro accountId keyId hkey
          cases hkey
    | inr hput => exact .inr ⟨session, hput, hrespects.fresh _ hfresh⟩
  refine ⟨hallows, ?_⟩
  intro reply after hserves
  have hserved := hsound.served hallows hserves
  refine ⟨hserved.1, hserved.2, ?_⟩
  cases reply with
  | committed => exact fun _ _ _ => trivial
  | canceled reasons => exact fun _ _ _ => trivial
  | failed cause => exact fun _ _ _ => trivial

theorem obeys_expandedCreation (token : String) (hsound : world.Sound) :
    ((scope.config.createAstrometrySession token).expand (backendHandler scope.lookupDigest)).Obeys
      ((keyDiscipline scope).contract pid) (fun _ _ => True) world := by
  apply obeys_expanded hsound
    ((issues_authenticateApiKey scope.config token scopeSolveSubmit).mono keyPlain_of_plain)
  intro authenticated later hlater
  apply obeys_expanded hlater (show Auth.utcNow.Issues KeyPlain from ⟨trivial, fun _ => trivial⟩)
  intro now later hlater
  apply obeys_expanded hlater ((issues_recycle authenticated now).mono keyPlain_of_plain)
  intro _ later hlater
  apply obeys_expanded hlater (issues_randomSecret.mono keyPlain_of_plain)
  -- The identifier is fresh from its drawing to the insertion.
  intro secret later hlater before hrespects hbefore
  refine ⟨trivial, ?_⟩
  intro sessionId after hserves
  have hdrawn : DynamoWorld.Serves pid before (.service .nowV7) sessionId after := hserves
  have hserved := DynamoWorld.Sound.served hbefore (by trivial) hdrawn
  refine ⟨hserved.1, hserved.2, ?_⟩
  obtain ⟨hnew, hafter⟩ := hdrawn
  have hfresh : after.Fresh pid sessionId := by
    rw [hafter]
    constructor
    · exact List.mem_cons_self
    · intro accountId
      cases hminted : before.minted accountId sessionId with
      | none => rfl
      | some first =>
          obtain ⟨owner, howner⟩ := hbefore.owned accountId sessionId first hminted
          exact absurd rfl (hnew _ howner)
  have hcreate := @obeys_createSession scope pid after
    (scope.config.astrometrySession sessionId authenticated now secret) hfresh
  change ((backendHandler scope.lookupDigest (.repository (.createSession
    (scope.config.astrometrySession sessionId authenticated now secret)))) >>= _).Obeys _ _ _
  refine hcreate.bind hserved.1 ?_
  intro reply last _ _
  cases reply with
  | error cause => trivial
  | ok _ => exact fun _ _ _ => trivial

/-- Every call beside revocations obeys. -/
theorem obeys_besideRevocation {call : AuthCall} (hbeside : call.BesideRevocation)
    (hsound : world.Sound) :
    ((call.program scope.config).expand (backendHandler scope.lookupDigest)).Obeys
      ((keyDiscipline scope).contract pid) (fun _ _ => True) world := by
  by_cases hcreates : ∃ token, call = .createAstrometrySession token
  · obtain ⟨token, hcall⟩ := hcreates
    subst hcall
    exact obeys_expandedCreation token hsound
  · have hissues := @issues_keyPlain scope.config call hbeside
      fun token hcall => hcreates ⟨token, hcall⟩
    exact obeys_plainBackend (hissues.expand issues_handler)

end Bodies

/-! ## Runs -/

section DynamoRuns

variable {scope : DynamoScope} {table : IdentityTable} {clock : Time}
  {config final : Configuration AuthCall BackendRequest BackendRequest.Response AuthError
    AuthCall.Result DynamoWorld}
  {labels past rest : List (Label AuthCall BackendRequest BackendRequest.Response AuthError)}
  {accountId : AccountId} {keyId : ApiKeyId}

theorem dynamoSound_initial (table : IdentityTable) (clock : Time) :
    (DynamoWorld.initial table clock).Sound := by
  constructor
  · exact List.nodup_nil
  · intro accountId sessionId first hminted
    cases hminted
  · intro accountId sessionId session hfind
    cases hfind

theorem keyRespected_of_run (hscope : ∀ call, scope.admits call → call.BesideRevocation)
    (hrespected : (keyDiscipline scope).Respected config)
    (hrun : Run (dynamoIdentitySystem scope).Step config labels final) :
    (keyDiscipline scope).Respected final :=
  Run.preserves _ hrespected
    (fun _ _ _ hbefore hstep => hbefore.step
      (fun _ _ _ hsound hadmits => obeys_besideRevocation (hscope _ hadmits) hsound) hstep) hrun

theorem keyRespected_of_initial (hscope : ∀ call, scope.admits call → call.BesideRevocation)
    (hrun : Run (dynamoIdentitySystem scope).Step (.idle (.initial table clock)) labels final) :
    (keyDiscipline scope).Respected final :=
  Discipline.respected_of_run
    (fun _ _ _ hsound hadmits => obeys_besideRevocation (hscope _ hadmits) hsound)
    (dynamoSound_initial table clock) hrun

/-- A dead key stays dead, and sessions keep the key that minted them. -/
theorem keyDead_step (hrespected : (keyDiscipline scope).Respected config)
    {label : Label AuthCall BackendRequest BackendRequest.Response AuthError}
    (hstep : (dynamoIdentitySystem scope).Step config label final) :
    (KeyDeadItem accountId keyId config.store.table →
      KeyDeadItem accountId keyId final.store.table) ∧
    ∀ account sessionId first, config.store.minted account sessionId = some first →
      final.store.minted account sessionId = some first := by
  cases hstep with
  | start pid call hfree hadmits => exact ⟨fun hdead => hdead, fun _ _ _ hminted => hminted⟩
  | halt pid call r next cause store hprocess hhalts =>
      have hsame : store = config.store := hhalts
      rw [hsame]
      exact ⟨fun hdead => hdead, fun _ _ _ hminted => hminted⟩
  | environment store hmoves =>
      have hdrifted := @DynamoWorld.Sound.drifts config.store store accountId keyId hrespected.1
        hmoves
      exact ⟨hdrifted.2.2, (hdrifted.2.1 0).minted⟩
  | ask pid call r next reply store hprocess hanswers =>
      have hallows := hrespected.guard hprocess
      have hserves : DynamoWorld.Serves pid config.store r reply store := hanswers
      refine ⟨fun hdead => ?_, (hrespected.1.served hallows hserves).2.2.minted⟩
      cases r with
      | store r =>
          obtain ⟨table, hserved, hafter⟩ := hserves
          rw [hafter]
          exact DynamoWorld.keyDead_served hallows hserved hdead
      | service r =>
          have hsame : store.table = config.store.table := by
            cases r with
            | utcNow => rw [hserves.2]
            | nowV7 => rw [hserves.2]
            | randomSecret => rw [show store = config.store from hserves]
            | randomCode => rw [show store = config.store from hserves]
            | checkEmailSend source email => rw [show store = config.store from hserves]
            | sendSignIn email => rw [show store = config.store from hserves]
            | repository call => exact hserves.elim
          rw [hsame]
          exact hdead

theorem keyDeadItem_of_run (hscope : ∀ call, scope.admits call → call.BesideRevocation)
    (hrespected : (keyDiscipline scope).Respected config)
    (hrun : Run (dynamoIdentitySystem scope).Step config labels final) :
    (KeyDeadItem accountId keyId config.store.table →
      KeyDeadItem accountId keyId final.store.table) ∧
    ∀ account sessionId first, config.store.minted account sessionId = some first →
      final.store.minted account sessionId = some first := by
  have hall := Run.preserves
    (fun state => (keyDiscipline scope).Respected state ∧
      (KeyDeadItem accountId keyId config.store.table →
        KeyDeadItem accountId keyId state.store.table) ∧
      ∀ account sessionId first, config.store.minted account sessionId = some first →
        state.store.minted account sessionId = some first)
    ⟨hrespected, fun hdead => hdead, fun _ _ _ hminted => hminted⟩ ?_ hrun
  · exact hall.2
  · intro before label after hbefore hstep
    obtain ⟨hsound, hdead, hminted⟩ := hbefore
    have hmoved := @keyDead_step scope before after accountId keyId hsound label hstep
    refine ⟨keyRespected_of_run hscope hsound (run_singleton.mpr hstep),
      fun hstart => hmoved.1 (hdead hstart), ?_⟩
    intro account sessionId first hfirst
    exact hmoved.2 account sessionId first (hminted account sessionId first hfirst)

/-- After the update of a revocation the key is dead. -/
theorem keyDead_of_update {revokedAt : Time} {world : DynamoWorld} {after : IdentityTable}
    {reply : Option (Option ApiKey)}
    (hserves : TransactionalStore.Serves world.table
      (.writeItem (DynamoIdentity.revokeApiKeyWrite accountId keyId revokedAt))
      (.ok reply : Except Fault (Option (Option ApiKey))) after) :
    KeyDeadItem accountId keyId after := by
  intro key hfind
  cases hserves with
  | written write hholds =>
      rw [show (DynamoIdentity.revokeApiKeyWrite accountId keyId revokedAt).apply world.table
        (.apiKey accountId keyId) = _ from Write.apply_self _ _] at hfind
      obtain ⟨old, hold, hrow⟩ := Option.map_eq_some_iff.mp hfind
      rw [← hrow]
      nofun
  | refused write hrefused =>
      intro hlive
      apply hrefused
      change (world.table (.apiKey accountId keyId)).any _ = true
      rw [hfind]
      simp [hlive]

/-- A read that a process has seen happened in the run. -/
theorem mem_of_replayed {pid : ℕ} {call : AuthCall} {value : call.Result}
    (hrun : Run (dynamoIdentitySystem scope).Step (.idle (.initial table clock)) labels final)
    (hdone : final.process pid = some ⟨call, .done value⟩) :
    ∃ calls, (call.program scope.config).Replays calls (.done value) ∧
      ∀ (called : IdentityCall) (result : called.Result),
        (⟨.repository called, .ok result⟩ : (r : AuthRequest) × r.Response) ∈ calls →
          ∃ part, (∀ answer ∈ part, answer ∈ answersOf pid labels) ∧
            (backendHandler scope.lookupDigest (.repository called)).Replays part
              (.done (.ok result)) := by
  cases System.replays_of_run hrun hdone with
  | inl hfault =>
      obtain ⟨cause, hfault⟩ := hfault
      cases hfault
  | inr hreplays =>
      obtain ⟨calls, hcalls, hparts⟩ := Program.Replays.of_expand hreplays
      refine ⟨calls, hcalls, ?_⟩
      intro called result hmem
      obtain ⟨part, hpart, hhandled⟩ := hparts _ hmem
      exact ⟨part, hpart, hhandled⟩

/-- What a read shows is what the table holds. -/
theorem table_of_get {before after : Configuration AuthCall BackendRequest BackendRequest.Response
      AuthError AuthCall.Result DynamoWorld} {pid : ℕ} {key : IdentityKey}
    {found : Option key.Item}
    (hstep : (dynamoIdentitySystem scope).Step before (.ask pid (.store (.get key)) (.ok found))
      after) : before.store.table key = found := by
  cases hstep with
  | ask pid call r next reply store hprocess hanswers =>
      obtain ⟨table, hserved, _⟩ := hanswers
      cases hserved with
      | got key => rfl

/-- Once a key is dead nothing that starts later succeeds with it, nor with a
session minted from it. -/
theorem dynamo_refused_of_keyDead (hscope : ∀ call, scope.admits call → call.BesideRevocation)
    (hpast : Run (dynamoIdentitySystem scope).Step (.idle (.initial table clock)) past config)
    (hrest : Run (dynamoIdentitySystem scope).Step config rest final)
    (hdead : KeyDeadItem accountId keyId config.store.table) {pid : ℕ} {call : AuthCall}
    {value : call.Result} (hstart : .start pid call ∈ rest)
    (hdone : final.process pid = some ⟨call, .done value⟩) :
    (∀ token secret, call.keyToken? = some token →
      scope.config.parseApiKeyToken token ≠ some (accountId, keyId, secret)) ∧
    ∀ token sessionId secret, call = .authenticateAstrometrySession token →
      scope.config.parseSessionToken token = some (accountId, sessionId, secret) →
        ∀ first, final.store.minted accountId sessionId = some first →
          first.apiKeyId ≠ some keyId := by
  have hrun : Run (dynamoIdentitySystem scope).Step (.idle (.initial table clock)) (past ++ rest)
      final := run_append.mpr ⟨config, hpast, hrest⟩
  obtain ⟨calls, hreplays, hparts⟩ := mem_of_replayed hrun hdone
  have hread : ∀ {key : IdentityKey} {found : Option key.Item}
      {part : List ((r : BackendRequest) × r.Response)},
      (∀ answer ∈ part, answer ∈ answersOf pid (past ++ rest)) →
      (⟨.store (.get key), .ok found⟩ : (r : BackendRequest) × r.Response) ∈ part →
      ∃ first second before, Run (dynamoIdentitySystem scope).Step config first before ∧
        before.store.table key = found ∧
        Run (dynamoIdentitySystem scope).Step before second final := by
    intro key found part hpart hmem
    have hlabel := mem_answersOf.mp (hpart _ hmem)
    rw [List.mem_append] at hlabel
    have hlater := hlabel.resolve_left (System.ask_not_mem_of_start hpast hrest hstart)
    obtain ⟨first, second, before, asking, next, after, _, hfirst, hprocess, hserves, hsecond⟩ :=
      System.exists_of_ask hrest hlater
    have hstep : (dynamoIdentitySystem scope).Step before _ _ :=
      .ask pid asking _ next _ after hprocess hserves
    exact ⟨first, _, before, hfirst, table_of_get hstep, run_cons.mpr ⟨_, hstep, hsecond⟩⟩
  have hunread : ¬ KeyRead calls accountId keyId := by
    intro hkey
    obtain ⟨key, now, hlive, hmem⟩ := hkey
    obtain ⟨part, hpart, hhandled⟩ := hparts (.apiKey accountId keyId) (some key) hmem
    obtain ⟨first, second, before, hfirst, htable, _⟩ := hread hpart (mem_of_apiKey hhandled)
    have hstill := (@keyDeadItem_of_run scope config before first accountId keyId hscope
      (keyRespected_of_initial hscope hpast) hfirst).1 hdead
    unfold ApiKey.live at hlive
    simp only [Bool.and_eq_true, Option.isNone_iff_eq_none] at hlive
    exact hstill key htable hlive.1
  constructor
  · intro token secret htoken hparsed
    obtain ⟨account, key, other, hsame, hkey⟩ := replays_key htoken hreplays
    rw [hparsed, Option.some.injEq] at hsame
    cases hsame
    exact hunread hkey
  · intro token sessionId secret hcall hparsed first hminted hfromKey
    subst hcall
    obtain ⟨account, id, now, session, hasked, hkeys⟩ := replays_astrometry hreplays
    obtain ⟨other, hsame, _⟩ := hasked.parsed
    rw [hparsed, Option.some.injEq] at hsame
    cases hsame
    apply hunread
    apply hkeys
    -- The session that was read was minted from the key.
    obtain ⟨answers, hanswered⟩ := hasked.asked
    obtain ⟨part, hpart, hhandled⟩ := hparts (.session accountId sessionId) (some session) (by
      rw [hanswered]
      exact List.mem_cons_of_mem _ List.mem_cons_self)
    obtain ⟨front, back, before, hfront, htable, hback⟩ := hread hpart (mem_of_session hhandled)
    have hbefore := keyRespected_of_run hscope (keyRespected_of_initial hscope hpast) hfront
    obtain ⟨earliest, hearliest, hkey, _⟩ :=
      hbefore.1.history accountId sessionId session htable
    have hkept := (@keyDeadItem_of_run scope before final back accountId keyId hscope hbefore
      hback).2 accountId sessionId earliest hearliest
    rw [hminted, Option.some.injEq] at hkept
    rw [hkey, ← hkept]
    exact hfromKey

/-! ## What a revocation does to sessions -/

/-- The requests of a revocation: the update of the key, the query, and updates
of sessions that the query has shown to be minted from the key. -/
def RevocationRequest (accountId : AccountId) (keyId : ApiKeyId) (revokedAt : Time)
    (known : List ((r : BackendRequest) × r.Response)) : BackendRequest → Prop
  | .store r => r.writes = [] ∨
      r.writes = [DynamoIdentity.revokeApiKeyWrite accountId keyId revokedAt] ∨
      ∃ (session : AuthSession) (items : List ((key : IdentityKey) × key.Item)),
        r.writes = [DynamoIdentity.revokeSessionWrite accountId session.id revokedAt] ∧
        (⟨.store (.query (DynamoIdentity.sessionsOf accountId)), .ok items⟩ :
          (r : BackendRequest) × r.Response) ∈ known ∧
        session ∈ items.filterMap DynamoIdentity.sessionFromItem ∧ session.apiKeyId = some keyId
  | .service _ => True

theorem issuesKnowing_revokeMinted {revokedAt : Time} {α : Type}
    {g : Except Fault Bool → BackendProgram α}
    (hg : ∀ outcome known, (g outcome).IssuesKnowing
      (RevocationRequest accountId keyId revokedAt) known)
    {items : List ((key : IdentityKey) × key.Item)} (sessions : List AuthSession)
    (hsessions : ∀ session ∈ sessions, session ∈ items.filterMap DynamoIdentity.sessionFromItem)
    {known : List ((r : BackendRequest) × r.Response)}
    (hknown : (⟨.store (.query (DynamoIdentity.sessionsOf accountId)), .ok items⟩ :
      (r : BackendRequest) × r.Response) ∈ known) :
    ((((DynamoIdentity.revokeMinted accountId keyId revokedAt sessions).relay BackendRequest.store
      fun _ reply => reply).outcome : BackendProgram (Except Fault Bool)) >>= g).IssuesKnowing
        (RevocationRequest accountId keyId revokedAt) known := by
  induction sessions generalizing known with
  | nil => exact hg _ _
  | cons session rest ih =>
      have hrest := fun other hmem => hsessions other (List.mem_cons_of_mem _ hmem)
      unfold DynamoIdentity.revokeMinted
      split_ifs with hminted
      · refine ⟨.inr (.inr ⟨session, items, rfl, hknown, hsessions session List.mem_cons_self,
          hminted.1⟩), ?_⟩
        intro answer
        cases answer with
        | error cause => exact hg _ _
        | ok written => exact ih hrest (List.mem_append_left _ hknown)
      · exact ih hrest hknown

theorem issuesKnowing_revokeApiKey (scope : DynamoScope) (accountId : AccountId) (keyId : ApiKeyId)
    (revokedAt : Time) :
    (((AuthCall.repository (.revokeApiKey accountId keyId revokedAt)).program scope.config).expand
      (backendHandler scope.lookupDigest)).IssuesKnowing
        (RevocationRequest accountId keyId revokedAt) [] := by
  refine ⟨.inr (.inl rfl), ?_⟩
  intro answer
  cases answer with
  | error cause => trivial
  | ok written =>
      cases written with
      | none => trivial
      | some _ =>
          refine ⟨.inl rfl, ?_⟩
          intro queried
          cases queried with
          | error cause => trivial
          | ok items =>
              refine issuesKnowing_revokeMinted ?_ _ (fun session hmem => hmem) ?_
              · intro outcome known
                cases outcome with
                | error cause => trivial
                | ok revoked => trivial
              · exact List.mem_append_right _ (List.mem_singleton_self _)

/-- A step of a revocation leaves the sessions of other keys alone. -/
theorem dynamo_revocation_other (hscope : ∀ call, scope.admits call → call.BesideRevocation)
    (hpast : Run (dynamoIdentitySystem scope).Step (.idle (.initial table clock)) past config)
    {pid : ℕ} {revokedAt : Time} {program : BackendProgram Bool}
    (hprocess : config.process pid =
      some ⟨.repository (.revokeApiKey accountId keyId revokedAt), program⟩)
    {r : BackendRequest} {reply : r.Response}
    (hstep : (dynamoIdentitySystem scope).Step config (.ask pid r reply) final)
    {owner : AccountId} {sessionId : SessionId} {session : AuthSession}
    (hfind : config.store.table (.session owner sessionId) = some session)
    (hother : ¬ (owner = accountId ∧ session.apiKeyId = some keyId)) :
    final.store.table (.session owner sessionId) = some session := by
  cases hstep with
  | ask pid call r next reply store hasks hanswers =>
      rw [hprocess, Option.some.injEq] at hasks
      cases hasks
      have hrequest : RevocationRequest accountId keyId revokedAt (answersOf pid past) r := by
        cases System.replays_of_run hpast hprocess with
        | inl hfault =>
            obtain ⟨cause, hfault⟩ := hfault
            cases hfault
        | inr hreplays =>
            exact hreplays.issuesKnowing (issuesKnowing_revokeApiKey scope accountId keyId revokedAt)
      have hserves : DynamoWorld.Serves pid config.store r reply store := hanswers
      cases r with
      | service r =>
          cases r with
          | utcNow => rwa [hserves.2]
          | nowV7 => rwa [hserves.2]
          | randomSecret => rwa [show store = config.store from hserves]
          | randomCode => rwa [show store = config.store from hserves]
          | checkEmailSend source email => rwa [show store = config.store from hserves]
          | sendSignIn email => rwa [show store = config.store from hserves]
          | repository call => exact hserves.elim
      | store r =>
          obtain ⟨written, hserved, hafter⟩ := hserves
          rw [hafter]
          change written (.session owner sessionId) = some session
          cases hserved.item (.session owner sessionId) with
          | inl hsame => rw [hsame, hfind]
          | inr hwritten =>
              obtain ⟨write, hmem, hkey, _, _⟩ := hwritten
              exfalso
              obtain hnone | hupdate | ⟨shown, items, hrevoke, hlisted, hshown, hminted⟩ := hrequest
              · rw [hnone] at hmem
                cases hmem
              · rw [hupdate, List.mem_singleton] at hmem
                subst hmem
                cases hkey
              · rw [hrevoke, List.mem_singleton] at hmem
                subst hmem
                cases hkey
                apply hother
                refine ⟨rfl, ?_⟩
                -- The query showed the session with the key that minted it.
                obtain ⟨front, back, before, asking, following, after, _, hfront, hasked, hqueries,
                  hback⟩ := System.exists_of_ask hpast (mem_answersOf.mp hlisted)
                have hbefore := keyRespected_of_initial hscope hfront
                obtain ⟨entry, hentry, hitem⟩ := List.mem_filterMap.mp hshown
                have hstored : before.store.table entry.1 = some entry.2 ∧
                    DynamoIdentity.sessionsOf accountId entry.1 = true := by
                  obtain ⟨_, hqueried, _⟩ := hqueries
                  cases hqueried with
                  | queried selected items hitems hnodup =>
                      exact ⟨((hitems entry).mp hentry).2, ((hitems entry).mp hentry).1⟩
                obtain ⟨key, item⟩ := entry
                cases key with
                | session account id =>
                    cases hitem
                    have haccount : account = accountId := by
                      simpa [DynamoIdentity.sessionsOf] using hstored.2
                    subst haccount
                    obtain ⟨first, hfirst, hfromKey, hid⟩ :=
                      hbefore.1.history account id shown hstored.1
                    have hkept := (@keyDeadItem_of_run scope before config _ account keyId hscope
                      hbefore (run_cons.mpr ⟨_, .ask pid asking _ following _ after hasked hqueries,
                        hback⟩)).2 account id first hfirst
                    obtain ⟨earliest, hearliest, hcurrent, _⟩ :=
                      (keyRespected_of_initial hscope hpast).1.history account shown.id session hfind
                    rw [hid, hkept, Option.some.injEq] at hearliest
                    rw [hcurrent, ← hearliest, ← hfromKey]
                    exact hminted
                | _ => cases hitem

end DynamoRuns

/-! ## The cut-off -/

/-- Revoking an API key is an immediate cut-off on both stores: an answered
revocation leaves the key dead; from then on no call that starts later succeeds
with the key or with a session minted from it; and the sessions of other keys
stay as they are. -/
theorem api_key_revocation (sqlx : IdentityScope) (hsqlx : ∀ call, sqlx.admits call → call.Served)
    (dynamo : DynamoScope) (hdynamo : ∀ call, dynamo.admits call → call.BesideRevocation)
    (db : IdentityDatabase) (table : IdentityTable) (clock : Time) (accountId : AccountId)
    (keyId : ApiKeyId) (revokedAt : Time) :
    ((∀ past before, Run (identitySystem sqlx).Step (.idle (.initial db clock)) past before →
      (∀ user reply after, (identitySystem sqlx).Step before
        (.ask user (.repository (.revokeApiKey accountId keyId revokedAt)) reply) after →
          ((∃ revoked, reply = .ok revoked) → after.store.db.KeyDead accountId keyId) ∧
          ∀ session, before.store.db.authSessions.find? session.id = some session →
            ¬ (session.accountId = accountId ∧ session.apiKeyId = some keyId) →
              after.store.db.authSessions.find? session.id = some session) ∧
      (before.store.db.KeyDead accountId keyId → ∀ rest final,
        Run (identitySystem sqlx).Step before rest final → ∀ pid (call : AuthCall) value,
          .start pid call ∈ rest → final.process pid = some ⟨call, .done value⟩ →
            (∀ token secret, call.keyToken? = some token →
              sqlx.config.parseApiKeyToken token ≠ some (accountId, keyId, secret)) ∧
            ∀ token sessionId secret, call = .authenticateAstrometrySession token →
              sqlx.config.parseSessionToken token = some (accountId, sessionId, secret) →
                ∀ first ∈ final.store.minted, first.id = sessionId →
                  first.apiKeyId ≠ some keyId)) ∧
    ∀ past before,
      Run (dynamoIdentitySystem dynamo).Step (.idle (.initial table clock)) past before →
      (∀ user reply after, (dynamoIdentitySystem dynamo).Step before (.ask user (.store (.writeItem
        (DynamoIdentity.revokeApiKeyWrite accountId keyId revokedAt))) (.ok reply)) after →
          KeyDeadItem accountId keyId after.store.table) ∧
      (∀ user program, before.process user =
        some ⟨.repository (.revokeApiKey accountId keyId revokedAt), program⟩ →
        ∀ r reply after, (dynamoIdentitySystem dynamo).Step before (.ask user r reply) after →
          ∀ owner sessionId session, before.store.table (.session owner sessionId) = some session →
            ¬ (owner = accountId ∧ session.apiKeyId = some keyId) →
              after.store.table (.session owner sessionId) = some session) ∧
      (KeyDeadItem accountId keyId before.store.table → ∀ rest final,
        Run (dynamoIdentitySystem dynamo).Step before rest final → ∀ pid (call : AuthCall) value,
          .start pid call ∈ rest → final.process pid = some ⟨call, .done value⟩ →
            (∀ token secret, call.keyToken? = some token →
              dynamo.config.parseApiKeyToken token ≠ some (accountId, keyId, secret)) ∧
            ∀ token sessionId secret, call = .authenticateAstrometrySession token →
              dynamo.config.parseSessionToken token = some (accountId, sessionId, secret) →
                ∀ first, final.store.minted accountId sessionId = some first →
                  first.apiKeyId ≠ some keyId)) := by
  refine ⟨?_, ?_⟩
  · intro past before hpast
    refine ⟨?_, ?_⟩
    · intro user reply after hstep
      cases hstep with
      | ask pid call r next answer store hprocess hserves =>
          obtain ⟨db, hserved, hafter⟩ := hserves
          rw [hafter]
          cases hserved with
          | inl hanswers =>
              have hwritten : db =
                  (before.store.db.revokeApiKey accountId keyId revokedAt).2 := hanswers.2
              constructor
              · intro _
                change db.KeyDead accountId keyId
                rw [hwritten]
                exact IdentityDatabase.keyDead_of_revokeApiKey _ _ _ _
              · intro session hfind hother
                change db.authSessions.find? session.id = some session
                rw [hwritten]
                exact IdentityDatabase.revokeApiKey_other revokedAt hfind hother
          | inr hfailed =>
              obtain ⟨⟨message, hreply⟩, hsame⟩ := hfailed
              constructor
              · intro hok
                obtain ⟨revoked, hok⟩ := hok
                rw [hreply] at hok
                cases hok
              · intro session hfind _
                change db.authSessions.find? session.id = some session
                rw [hsame]
                exact hfind
    · intro hdead rest final hrest pid call value hstart hdone
      exact refused_of_keyDead hsqlx hpast hrest hdead hstart hdone
  · intro past before hpast
    refine ⟨?_, ?_, ?_⟩
    · intro user reply after hstep
      cases hstep with
      | ask pid call r next answer store hprocess hserves =>
          obtain ⟨written, hserved, hafter⟩ := hserves
          rw [hafter]
          exact keyDead_of_update hserved
    · intro user program hprocess r reply after hstep owner sessionId session hfind hother
      exact dynamo_revocation_other hdynamo hpast hprocess hstep hfind hother
    · intro hdead rest final hrest pid call value hstart hdone
      exact dynamo_refused_of_keyDead hdynamo hpast hrest hdead hstart hdone

/-- At a table whose only key was revoked before the run. -/
theorem api_key_revocation_revoked :
    let config : AuthConfig := ⟨fun _ => some 0, id, fun _ => true, id, fun _ code => code⟩
    let key : ApiKey := ⟨0, 0, "digest", "seiza_key", "key", ["solve:submit"], 1, 0, none, none,
      some 5⟩
    let table : IdentityTable := fun itemKey =>
      match itemKey with
      | .apiKey 0 0 => some key
      | _ => none
    let scope : DynamoScope := ⟨config, id, AuthCall.BesideRevocation⟩
    config.parseApiKeyToken "seiza_key_0_0_secret" = some (0, 0, "secret") ∧
    ∀ rest final, Run (dynamoIdentitySystem scope).Step (.idle (.initial table 7)) rest final →
      ∀ pid value, .start pid (.authenticateApiKey "seiza_key_0_0_secret" "solve:submit") ∈ rest →
        final.process pid ≠
          some ⟨.authenticateApiKey "seiza_key_0_0_secret" "solve:submit", .done value⟩ := by
  intro config key table scope
  have hparsed : config.parseApiKeyToken "seiza_key_0_0_secret" = some (0, 0, "secret") := by
    decide
  refine ⟨hparsed, ?_⟩
  intro rest final hrest pid value hstart hdone
  have hall := api_key_revocation ⟨config, AuthCall.Served, True⟩ (fun _ hserved => hserved) scope
    (fun _ hbeside => hbeside) ⟨⟨.empty, List.nodup_nil, List.nodup_nil⟩, .empty, .empty, .empty,
      .empty⟩ table 7 0 0 5
  have hdead : KeyDeadItem 0 0 (DynamoWorld.initial table 7).table := by
    intro found hfound
    change some key = some found at hfound
    rw [← Option.some.inj hfound]
    nofun
  exact ((hall.2 [] _ (run_nil.mpr rfl)).2.2 hdead rest final hrest pid _ value hstart hdone).1 _ _
    rfl hparsed

end SeizaServer
