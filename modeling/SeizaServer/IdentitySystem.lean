import SeizaServer.AuthService
import SeizaServer.SqlxIdentityEffects

/-!
# The sign-in service over the SQLx identity store

Calls of the service interleave, one request at a time.  The world holds the
tables and the clock, and besides them the history that the invariants speak
about: who drew which identifier, and every session that was ever inserted.
-/

namespace SeizaServer

open Interaction Transition

structure IdentityWorld where
  db : IdentityDatabase
  clock : Time
  /-- The identifiers drawn so far, with the process that drew them. -/
  drawn : List (ℕ × Uuid)
  /-- The sessions as they were inserted. -/
  minted : List AuthSession

namespace IdentityWorld

/-- The sessions that a step added. -/
def added (before after : IdentityDatabase) : List AuthSession :=
  after.authSessions.rows.filter fun session =>
    (before.authSessions.find? session.id).isNone

/-- The world after the repository has written. -/
def written (world : IdentityWorld) (db : IdentityDatabase) : IdentityWorld :=
  { world with db := db, minted := added world.db db ++ world.minted }

/-- How a request is answered.  A new identifier differs from all others. -/
def Serves (pid : ℕ) (world : IdentityWorld) :
    (r : AuthRequest) → r.Response → IdentityWorld → Prop
  | .utcNow, reply, after => reply = world.clock ∧ after = world
  | .nowV7, reply, after => (∀ entry ∈ world.drawn, entry.2 ≠ reply) ∧
      after = { world with drawn := (pid, reply) :: world.drawn }
  | .repository call, reply, after =>
      ∃ db, world.db.Serves call reply db ∧ after = world.written db
  | _, _, after => after = world

/-- The status of one account is set by hand. -/
def setStatus (world : IdentityWorld) (accountId : AccountId) (status : AccountStatus) :
    IdentityWorld :=
  let selected := fun account : Account => decide (account.id = accountId)
  let accounts := world.db.accounts.modify selected fun account => { account with status := status }
  { world with db := { world.db with accounts := accounts } }

end IdentityWorld

/-- Which calls may be made, and whether accounts are disabled and enabled. -/
structure IdentityScope where
  config : AuthConfig
  admits : AuthCall → Prop
  flips : Prop

/-- Time passes, and where the scope allows it an account changes its status. -/
inductive IdentityScope.Drifts (scope : IdentityScope) : IdentityWorld → IdentityWorld → Prop where
  | tick {world : IdentityWorld} (clock : Time) (hclock : world.clock ≤ clock) :
      Drifts scope world { world with clock := clock }
  | flip {world : IdentityWorld} (accountId : AccountId) (status : AccountStatus)
      (hflips : scope.flips) : Drifts scope world (world.setStatus accountId status)

def identitySystem (scope : IdentityScope) :
    System AuthCall AuthRequest AuthRequest.Response AuthError AuthCall.Result IdentityWorld where
  body := AuthCall.program scope.config
  admits := fun _ _ call => scope.admits call
  answers := IdentityWorld.Serves
  halts := fun _ before after => after = before
  environment := scope.Drifts

/-- Requests that the handlers and sweeps make of the repository directly: none
of them inserts or touches a session. -/
def IdentityCall.Outside : IdentityCall → Prop
  | .createEmailChallenge .. => False
  | .recordChallengeFailure .. => False
  | .completeEmailChallenge .. => False
  | .createSession _ => False
  | .completePasskeySignIn .. => False
  | .touchSession .. => False
  | .purgeExpired _ => False
  | _ => True

/-- The calls of the deployed service. -/
def AuthCall.Served : AuthCall → Prop
  | .repository call => call.Outside
  | _ => True

/-! ## Sessions and their history -/

/-- A session as it was inserted, up to its uses and its revocation. -/
def AuthSession.Continues (session minted : AuthSession) : Prop :=
  session = { minted with
    lastSeenAt := session.lastSeenAt
    expiresAt := session.expiresAt
    revokedAt := session.revokedAt }

/-- The idle expiry follows the last use, up to the absolute expiry. -/
def AuthSession.Lawful (session : AuthSession) : Prop :=
  session.expiresAt = min (session.lastSeenAt + sessionIdleLifetime) session.absoluteExpiresAt ∧
    session.absoluteExpiresAt = session.createdAt + sessionAbsoluteLifetime

/-- A session that was not used yet. -/
structure AuthSession.New (session : AuthSession) : Prop where
  lawful : session.Lawful
  unseen : session.lastSeenAt = session.createdAt
  unrevoked : session.revokedAt = none

/-- What holds of the world throughout every run.  The bound `since` is the
clock reading at which the observation starts. -/
structure IdentityWorld.Sound (since : Time) (world : IdentityWorld) : Prop where
  clock : since ≤ world.clock
  drawn : (world.drawn.map Prod.snd).Nodup
  minted : (world.minted.map AuthSession.id).Nodup
  owned : ∀ session ∈ world.minted, ∃ pid, (pid, session.id) ∈ world.drawn
  history : ∀ session ∈ world.db.authSessions.rows, ∃ first ∈ world.minted,
    session.Continues first
  lawful : ∀ session ∈ world.db.authSessions.rows, session.Lawful

/-- What a process may ask for: it inserts only sessions with an identifier it
drew and has not used, and it touches with a reading of the clock. -/
def IdentityWorld.Allows (since : Time) (pid : ℕ) (world : IdentityWorld) : AuthRequest → Prop
  | .repository (.touchSession _ sessionId lastSeenAt expiresAt) =>
      since ≤ lastSeenAt ∧ lastSeenAt ≤ world.clock ∧ ∃ first ∈ world.minted,
        first.id = sessionId ∧
          expiresAt = min (lastSeenAt + sessionIdleLifetime) first.absoluteExpiresAt
  | .repository (.purgeExpired now) => now ≤ world.clock
  | .repository call => ∀ session, call.newSession? = some session →
      (pid, session.id) ∈ world.drawn ∧ (∀ first ∈ world.minted, first.id ≠ session.id) ∧
        session.New
  | _ => True

/-- What a process relies on: the others keep away from its identifiers. -/
structure IdentityWorld.Respects (pid : ℕ) (before after : IdentityWorld) : Prop where
  clock : before.clock ≤ after.clock
  drawn : ∀ entry ∈ before.drawn, entry ∈ after.drawn
  minted : ∀ session ∈ before.minted, session ∈ after.minted
  unused : ∀ id, (pid, id) ∈ before.drawn → (∀ session ∈ before.minted, session.id ≠ id) →
    ∀ session ∈ after.minted, session.id ≠ id

namespace IdentityWorld

variable {since : Time} {pid other : ℕ} {world before after : IdentityWorld} {db : IdentityDatabase}
  {call : IdentityCall}

theorem Respects.refl (pid : ℕ) (world : IdentityWorld) : Respects pid world world := by
  constructor
  · exact le_refl _
  · exact fun _ hmem => hmem
  · exact fun _ hmem => hmem
  · exact fun _ _ hunused => hunused

theorem Respects.trans {middle : IdentityWorld} (hfirst : Respects pid before middle)
    (hsecond : Respects pid middle after) : Respects pid before after := by
  constructor
  · exact hfirst.clock.trans hsecond.clock
  · exact fun entry hmem => hsecond.drawn entry (hfirst.drawn entry hmem)
  · exact fun session hmem => hsecond.minted session (hfirst.minted session hmem)
  · intro id hdrawn hunused
    exact hsecond.unused id (hfirst.drawn _ hdrawn) (hfirst.unused id hdrawn hunused)

/-- A session that a call inserted, with the session it was asked to insert. -/
theorem mem_added (hanswers : ∃ reply, world.db.Answers call reply db) {session : AuthSession}
    (hmem : session ∈ added world.db db) :
    world.db.authSessions.find? session.id = none ∧
      ∃ newSession, call.newSession? = some newSession ∧
        session = { newSession with accountId := session.accountId } := by
  obtain ⟨reply, hanswers⟩ := hanswers
  obtain ⟨hrow, hnew⟩ := List.mem_filter.mp hmem
  have hnone := Option.isNone_iff_eq_none.mp hnew
  refine ⟨hnone, ?_⟩
  cases hanswers.session_origin (KeyedTable.find?_of_mem hrow) with
  | stayed old hbefore hstep =>
      rw [hnone] at hbefore
      cases hbefore
  | inserted newSession hcall _ hsession _ => exact ⟨newSession, hcall, hsession⟩

theorem added_self (db : IdentityDatabase) : added db db = [] := by
  unfold added
  rw [List.filter_eq_nil_iff]
  intro session hmem hnew
  have hfind := KeyedTable.find?_of_mem hmem
  rw [Option.isNone_iff_eq_none, hfind] at hnew
  cases hnew

theorem written_self (world : IdentityWorld) : world.written world.db = world := by
  unfold written
  rw [added_self]
  rfl

/-! ## What one answer preserves -/

theorem Allows.new {session : AuthSession} (hallows : world.Allows since pid (.repository call))
    (hcall : call.newSession? = some session) :
    (pid, session.id) ∈ world.drawn ∧ (∀ first ∈ world.minted, first.id ≠ session.id) ∧
      session.New := by
  cases call with
  | completeEmailChallenge challengeId now maxAttempts newAccount newSession =>
      exact hallows session hcall
  | createSession newSession => exact hallows session hcall
  | completePasskeySignIn challengeId passkey newSession now => exact hallows session hcall
  | _ => cases hcall

theorem continues_self (session : AuthSession) : session.Continues session := rfl

theorem Continues.step {before session first : AuthSession} (hcontinues : before.Continues first)
    (hstep : IdentityDatabase.SessionStep call before session) : session.Continues first := by
  unfold AuthSession.Continues at hcontinues ⊢
  cases hstep with
  | kept => exact hcontinues
  | revoked revokedAt hcall hlive =>
      rw [hcontinues]
  | touched lastSeenAt expiresAt hcall hlive habsolute =>
      rw [hcontinues]

theorem Sound.minted_unique (hsound : world.Sound since) {first second : AuthSession}
    (hfirst : first ∈ world.minted) (hsecond : second ∈ world.minted)
    (hid : first.id = second.id) : first = second :=
  List.inj_on_of_nodup_map hsound.minted hfirst hsecond hid

theorem Sound.lawful_step (hsound : world.Sound since)
    (hallows : world.Allows since pid (.repository call)) {before session : AuthSession}
    (hbefore : before ∈ world.db.authSessions.rows)
    (hstep : IdentityDatabase.SessionStep call before session) : session.Lawful := by
  have hlaw := hsound.lawful before hbefore
  cases hstep with
  | kept => exact hlaw
  | revoked revokedAt hcall hlive => exact hlaw
  | touched lastSeenAt expiresAt hcall hlive habsolute =>
      subst hcall
      obtain ⟨_, _, touched, htouched, hid, hexpires⟩ := hallows
      obtain ⟨first, hfirst, hcontinues⟩ := hsound.history before hbefore
      have hsame : touched = first := by
        apply hsound.minted_unique htouched hfirst
        rw [hid, hcontinues]
      have habsolutes : before.absoluteExpiresAt = first.absoluteExpiresAt := by rw [hcontinues]
      constructor
      · change expiresAt = _
        rw [hexpires, hsame, ← habsolutes]
      · exact hlaw.2

/-- The database after an answered call is sound, and other processes find
their identifiers unused. -/
theorem Sound.written (hsound : world.Sound since)
    (hallows : world.Allows since pid (.repository call)) {reply : Except Fault call.Result}
    (hanswers : world.db.Answers call reply db) :
    (world.written db).Sound since ∧
      (∀ other, pid ≠ other → Respects other world (world.written db)) := by
  have hadded : ∀ session ∈ added world.db db,
      ∃ newSession, call.newSession? = some newSession ∧
        session = { newSession with accountId := session.accountId } := by
    intro session hmem
    exact (mem_added ⟨reply, hanswers⟩ hmem).2
  have hfresh : ∀ session ∈ added world.db db, (pid, session.id) ∈ world.drawn ∧
      (∀ first ∈ world.minted, first.id ≠ session.id) := by
    intro session hmem
    obtain ⟨newSession, hcall, hsession⟩ := hadded session hmem
    have hid : session.id = newSession.id := by rw [hsession]
    obtain ⟨hdrawn, hunused, _⟩ := hallows.new hcall
    rw [hid]
    exact ⟨hdrawn, hunused⟩
  constructor
  · constructor
    · exact hsound.clock
    · exact hsound.drawn
    · unfold IdentityWorld.written
      rw [List.map_append, List.nodup_append]
      refine ⟨?_, hsound.minted, ?_⟩
      · exact List.Nodup.sublist (List.filter_sublist.map _) db.authSessions.unique
      · intro id hnew other hold hsame
        obtain ⟨session, hsession, hid⟩ := List.mem_map.mp hnew
        obtain ⟨first, hfirst, hother⟩ := List.mem_map.mp hold
        exact (hfresh session hsession).2 first hfirst (by rw [hother, hid, hsame])
    · intro session hmem
      rw [IdentityWorld.written, List.mem_append] at hmem
      cases hmem with
      | inl hnew => exact ⟨pid, (hfresh session hnew).1⟩
      | inr hold => exact hsound.owned session hold
    · intro session hmem
      have hfind := KeyedTable.find?_of_mem hmem
      cases hanswers.session_origin hfind with
      | stayed old hbefore hstep =>
          obtain ⟨first, hfirst, hcontinues⟩ :=
            hsound.history old (KeyedTable.mem_of_find? hbefore)
          exact ⟨first, List.mem_append_right _ hfirst, Continues.step hcontinues hstep⟩
      | inserted newSession hcall hnew hsession _ =>
          refine ⟨session, List.mem_append_left _ ?_, continues_self session⟩
          exact List.mem_filter.mpr ⟨hmem, by rw [hnew]; rfl⟩
    · intro session hmem
      have hfind := KeyedTable.find?_of_mem hmem
      cases hanswers.session_origin hfind with
      | stayed old hbefore hstep =>
          exact hsound.lawful_step hallows (KeyedTable.mem_of_find? hbefore) hstep
      | inserted newSession hcall hnew hsession _ =>
          rw [hsession]
          exact (hallows.new hcall).2.2.lawful
  · intro other hother
    constructor
    · exact le_refl _
    · exact fun _ hmem => hmem
    · exact fun _ hmem => List.mem_append_right _ hmem
    · intro id hdrawn hunused session hmem hid
      rw [IdentityWorld.written, List.mem_append] at hmem
      cases hmem with
      | inl hnew =>
          have howned := (hfresh session hnew).1
          rw [hid] at howned
          have hsame := List.inj_on_of_nodup_map hsound.drawn howned hdrawn rfl
          exact hother (Prod.ext_iff.mp hsame).1
      | inr hold => exact hunused session hold hid

/-- What a step leaves to everybody, its own process included. -/
structure Grows (before after : IdentityWorld) : Prop where
  clock : before.clock ≤ after.clock
  drawn : ∀ entry ∈ before.drawn, entry ∈ after.drawn
  minted : ∀ session ∈ before.minted, session ∈ after.minted

theorem Respects.grows (hrespects : Respects pid before after) : Grows before after :=
  ⟨hrespects.clock, hrespects.drawn, hrespects.minted⟩

theorem Sound.served (hsound : world.Sound since) {r : AuthRequest} {reply : r.Response}
    (hallows : world.Allows since pid r) (hserves : Serves pid world r reply after) :
    after.Sound since ∧ (∀ other, pid ≠ other → Respects other world after) ∧
      Grows world after := by
  have hunchanged : after = world →
      after.Sound since ∧ (∀ other, pid ≠ other → Respects other world after) ∧
        Grows world after := by
    intro hsame
    subst hsame
    exact ⟨hsound, fun other _ => .refl other _, (Respects.refl pid _).grows⟩
  cases r with
  | utcNow => exact hunchanged hserves.2
  | nowV7 =>
      obtain ⟨hnew, hafter⟩ := hserves
      subst hafter
      refine ⟨?_, ?_, ⟨le_refl _, fun _ hmem => List.mem_cons_of_mem _ hmem, fun _ hmem => hmem⟩⟩
      · refine { hsound with drawn := ?_, owned := ?_ }
        · rw [List.map_cons, List.nodup_cons]
          refine ⟨?_, hsound.drawn⟩
          intro hmem
          obtain ⟨entry, hentry, hid⟩ := List.mem_map.mp hmem
          exact hnew entry hentry hid
        · intro session hmem
          obtain ⟨owner, howner⟩ := hsound.owned session hmem
          exact ⟨owner, List.mem_cons_of_mem _ howner⟩
      · intro other hother
        exact ⟨le_refl _, fun _ hmem => List.mem_cons_of_mem _ hmem, fun _ hmem => hmem,
          fun _ _ hunused => hunused⟩
  | randomSecret => exact hunchanged hserves
  | randomCode => exact hunchanged hserves
  | checkEmailSend source email => exact hunchanged hserves
  | sendSignIn email => exact hunchanged hserves
  | repository call =>
      obtain ⟨db, hserved, hafter⟩ := hserves
      cases hserved with
      | inl hanswers =>
          subst hafter
          obtain ⟨hwritten, hothers⟩ := hsound.written hallows hanswers
          exact ⟨hwritten, hothers, le_refl _, fun _ hmem => hmem,
            fun _ hmem => List.mem_append_right _ hmem⟩
      | inr hfailed =>
          rw [hfailed.2, written_self] at hafter
          exact hunchanged hafter

end IdentityWorld

/-! ## The discipline of the service -/

namespace IdentityWorld

variable {scope : IdentityScope} {since : Time} {pid : ℕ} {before after world : IdentityWorld}

theorem Sound.drifts (hsound : before.Sound since) (hdrifts : scope.Drifts before after) :
    after.Sound since ∧ ∀ pid, Respects pid before after := by
  cases hdrifts with
  | tick clock hclock =>
      refine ⟨{ hsound with clock := hsound.clock.trans hclock }, fun pid => ?_⟩
      exact ⟨hclock, fun _ hmem => hmem, fun _ hmem => hmem, fun _ _ hunused => hunused⟩
  | flip accountId status hflips =>
      refine ⟨⟨hsound.clock, hsound.drawn, hsound.minted, hsound.owned, hsound.history,
        hsound.lawful⟩, fun pid => ?_⟩
      exact ⟨le_refl _, fun _ hmem => hmem, fun _ hmem => hmem, fun _ _ hunused => hunused⟩

end IdentityWorld

/-- All processes of the service, observed from a clock reading on. -/
def identityDiscipline (scope : IdentityScope) (since : Time) :
    Discipline (identitySystem scope) where
  invariant := IdentityWorld.Sound since
  rely := IdentityWorld.Respects
  guarantee := fun pid before after =>
    (∀ other, pid ≠ other → IdentityWorld.Respects other before after) ∧
      IdentityWorld.Grows before after
  guard := IdentityWorld.Allows since
  post := fun _ _ _ => True
  rely_refl := IdentityWorld.Respects.refl
  rely_trans := fun _ _ _ _ hfirst hsecond => hfirst.trans hsecond
  compatible := fun _ other _ _ hother hguarantee => hguarantee.1 other hother
  environment := fun _ _ hsound hdrifts => hsound.drifts hdrifts
  halts := by
    intro pid before after hsound hhalts
    have hsame : after = before := hhalts
    subst hsame
    exact ⟨hsound, fun other _ => .refl other _⟩

/-- Requests that neither insert nor touch a session nor sweep. -/
def AuthRequest.Plain : AuthRequest → Prop
  | .repository (.touchSession ..) => False
  | .repository (.purgeExpired _) => False
  | .repository call => call.newSession? = none
  | _ => True

theorem plain_of_outside {call : IdentityCall} (houtside : call.Outside) :
    (AuthRequest.repository call).Plain := by
  cases call with
  | createEmailChallenge challenge maxLive => exact houtside.elim
  | recordChallengeFailure challengeId now maxAttempts => exact houtside.elim
  | completeEmailChallenge challengeId now maxAttempts newAccount newSession => exact houtside.elim
  | createSession newSession => exact houtside.elim
  | completePasskeySignIn challengeId passkey newSession now => exact houtside.elim
  | touchSession accountId sessionId lastSeenAt expiresAt => exact houtside.elim
  | purgeExpired now => exact houtside.elim
  | _ => exact rfl

section Bodies

open Program

variable {scope : IdentityScope} {since : Time} {pid : ℕ} {world : IdentityWorld}

theorem allows_of_plain {r : AuthRequest} (hplain : r.Plain) : world.Allows since pid r := by
  cases r with
  | repository call =>
      cases call with
      | touchSession accountId sessionId lastSeenAt expiresAt => exact hplain.elim
      | purgeExpired now => exact hplain.elim
      | completeEmailChallenge challengeId now maxAttempts newAccount newSession => cases hplain
      | createSession newSession => cases hplain
      | completePasskeySignIn challengeId passkey newSession now => cases hplain
      | _ => exact fun session hsession => (by cases hsession)
  | _ => trivial

/-- A program of plain requests obeys, and keeps what others respect and no
step of its own disturbs. -/
theorem obeys_plain {α : Type} {Q : IdentityWorld → Prop} {program : AuthProgram α}
    (hissues : program.Issues AuthRequest.Plain)
    (hgrows : ∀ before after, Q before → IdentityWorld.Grows before after → Q after)
    (hstore : Q world) :
    program.Obeys ((identityDiscipline scope since).contract pid) (fun _ later => Q later) world :=
  Obeys.of_issues_keeping (fun _ _ hplain => allows_of_plain hplain)
    (fun _ _ _ _ hsound hallows hserves => (hsound.served hallows hserves))
    (fun _ _ hbefore hrespects => hgrows _ _ hbefore hrespects.grows)
    (fun _ _ hbefore hguarantee => hgrows _ _ hbefore hguarantee.2) hissues hstore

/-- The rule for one request. -/
theorem obeys_request {α : Type} {post : α → IdentityWorld → Prop} {r : AuthRequest}
    {next : r.Response → AuthProgram α}
    (hguard : ∀ later, later.Sound since → IdentityWorld.Respects pid world later →
      later.Allows since pid r)
    (hnext : ∀ later reply after, later.Sound since → IdentityWorld.Respects pid world later →
      IdentityWorld.Serves pid later r reply after → after.Sound since →
        IdentityWorld.Grows world after →
          (next reply).Obeys ((identityDiscipline scope since).contract pid) post after) :
    (Program.request r next).Obeys ((identityDiscipline scope since).contract pid) post world := by
  intro later hrespects hsound
  have hallows := hguard later hsound hrespects
  refine ⟨hallows, ?_⟩
  intro reply after hserves
  have hserved := hsound.served hallows hserves
  have hgrows : IdentityWorld.Grows world after := by
    have hfirst := hrespects.grows
    have hsecond := hserved.2.2
    exact ⟨hfirst.clock.trans hsecond.clock, fun entry hmem => hsecond.drawn entry
      (hfirst.drawn entry hmem), fun session hmem => hsecond.minted session
      (hfirst.minted session hmem)⟩
  exact ⟨hserved.1, hserved.2, hnext later reply after hsound hrespects hserves hserved.1 hgrows⟩

/-! ### Requests of the parts -/

theorem issues_internal {α : Type} {P : AuthRequest → Prop} (value : Except Fault α) :
    (Auth.internal value).Issues P := by
  cases value <;> trivial

theorem issues_orInvalid {α : Type} {P : AuthRequest → Prop} (value : Option α) :
    (Auth.orInvalid value).Issues P := by
  cases value <;> trivial

theorem issues_repository {P : AuthRequest → Prop} {call : IdentityCall}
    (hcall : P (.repository call)) : (Auth.repository call).Issues P :=
  ⟨hcall, issues_internal⟩

theorem issues_randomSecret : Auth.randomSecret.Issues AuthRequest.Plain :=
  ⟨trivial, issues_internal⟩

theorem issues_randomCode : Auth.randomCode.Issues AuthRequest.Plain :=
  ⟨trivial, issues_internal⟩

theorem issues_activeAccount (accountId : AccountId) :
    (activeAccount accountId).Issues AuthRequest.Plain :=
  (issues_repository (by exact rfl)).bind fun _ => issues_orInvalid _

theorem issues_touchKey (key : ApiKey) (accountId : AccountId) (keyId : ApiKeyId) (now : Time) :
    (touchKey key accountId keyId now).Issues AuthRequest.Plain := by
  unfold touchKey
  split_ifs
  · exact ⟨rfl, fun _ => trivial⟩
  · trivial

theorem issues_authenticateApiKey (config : AuthConfig) (token requiredScope : String) :
    (config.authenticateApiKey token requiredScope).Issues AuthRequest.Plain := by
  apply (issues_orInvalid _).bind
  intro parsed
  refine ⟨trivial, fun now => ?_⟩
  apply (issues_repository (by exact rfl)).bind
  intro found
  apply (issues_orInvalid _).bind
  intro key
  apply (issues_activeAccount _).bind
  intro account
  apply (issues_touchKey _ _ _ _).bind
  intro key
  trivial

theorem issues_deleteEach (accountId : AccountId) (sessions : List AuthSession) :
    (AuthConfig.deleteEach accountId sessions).Issues AuthRequest.Plain := by
  induction sessions with
  | nil => trivial
  | cons session rest ih => exact (issues_repository (by exact rfl)).bind fun _ => ih

theorem issues_recycle (authenticated : AuthenticatedApiKey) (now : Time) :
    (AuthConfig.recycleAstrometrySessions authenticated now).Issues AuthRequest.Plain := by
  apply (issues_repository (by exact rfl)).bind
  intro sessions
  dsimp only
  split_ifs
  · trivial
  · exact issues_deleteEach _ _

theorem issues_startEmail (config : AuthConfig) (email source : String) :
    (config.startEmail email source).Issues AuthRequest.Plain := by
  unfold AuthConfig.startEmail
  split
  · trivial
  · refine ⟨trivial, fun checked => ?_⟩
    cases checked with
    | error retryAfter => trivial
    | ok _ =>
        refine ⟨trivial, fun now => ⟨trivial, fun challengeId => ?_⟩⟩
        apply issues_randomSecret.bind
        intro linkSecret
        apply issues_randomCode.bind
        intro code
        apply (issues_repository (by exact rfl)).bind
        intro _
        refine ⟨trivial, fun sent => ?_⟩
        cases sent <;> trivial

/-! ### Programs that insert or touch a session -/

theorem obeys_of_issues {α : Type} {program : AuthProgram α}
    (hissues : program.Issues AuthRequest.Plain) :
    program.Obeys ((identityDiscipline scope since).contract pid) (fun _ _ => True) world :=
  obeys_plain (Q := fun _ => True) hissues (fun _ _ _ _ => trivial) trivial

theorem obeys_step {α β : Type} {program : AuthProgram α} {f : α → AuthProgram β}
    {post : β → IdentityWorld → Prop} (hsound : world.Sound since)
    (hissues : program.Issues AuthRequest.Plain)
    (hnext : ∀ value later, later.Sound since →
      (f value).Obeys ((identityDiscipline scope since).contract pid) post later) :
    (program >>= f).Obeys ((identityDiscipline scope since).contract pid) post world :=
  (obeys_of_issues hissues).bind hsound fun value later hlater _ => hnext value later hlater

/-- A session with an identifier that its process drew and has not used. -/
structure Insertable (pid : ℕ) (session : AuthSession) (world : IdentityWorld) : Prop where
  drawn : (pid, session.id) ∈ world.drawn
  unused : ∀ first ∈ world.minted, first.id ≠ session.id
  new : session.New

theorem Insertable.later {session : AuthSession} {later : IdentityWorld}
    (hinsertable : Insertable pid session world)
    (hrespects : IdentityWorld.Respects pid world later) : Insertable pid session later :=
  ⟨hrespects.drawn _ hinsertable.drawn,
    hrespects.unused _ hinsertable.drawn hinsertable.unused, hinsertable.new⟩

/-- A session whose identifier was drawn last. -/
theorem obeys_nowV7 {make : Uuid → AuthSession} (hid : ∀ id, (make id).id = id)
    (hnew : ∀ id, (make id).New) :
    Auth.nowV7.Obeys ((identityDiscipline scope since).contract pid)
      (fun id later => Insertable pid (make id) later) world := by
  apply obeys_request
  · intro later _ _
    trivial
  · intro later id after hsound hrespects hserves hafter hgrows further hfurther _
    obtain ⟨hunused, hdrawn⟩ := hserves
    have hinsertable : Insertable pid (make id) after := by
      subst hdrawn
      refine ⟨?_, ?_, hnew id⟩
      · rw [hid]
        exact List.mem_cons_self
      · intro first hfirst hsame
        rw [hid] at hsame
        obtain ⟨owner, howner⟩ := hsound.owned first hfirst
        exact hunused _ howner hsame
    exact hinsertable.later hfurther

theorem obeys_insert {α : Type} {call : IdentityCall} {session : AuthSession}
    {f : call.Result → AuthProgram α} (hcall : call.newSession? = some session)
    (hinsertable : Insertable pid session world)
    (hissues : ∀ value, (f value).Issues AuthRequest.Plain) :
    (Auth.repository call >>= f).Obeys ((identityDiscipline scope since).contract pid)
      (fun _ _ => True) world := by
  apply obeys_request
  · intro later _ hrespects
    have hlater := hinsertable.later hrespects
    cases call with
    | completeEmailChallenge challengeId now maxAttempts newAccount newSession =>
        cases hcall
        intro other hother
        cases hother
        exact ⟨hlater.drawn, hlater.unused, hlater.new⟩
    | createSession newSession =>
        cases hcall
        intro other hother
        cases hother
        exact ⟨hlater.drawn, hlater.unused, hlater.new⟩
    | completePasskeySignIn challengeId passkey newSession now =>
        cases hcall
        intro other hother
        cases hother
        exact ⟨hlater.drawn, hlater.unused, hlater.new⟩
    | _ => cases hcall
  · intro later reply after _ _ _ _ _
    exact obeys_of_issues ((issues_internal reply).bind hissues)

theorem sessionIdleLifetime_le : sessionIdleLifetime ≤ sessionAbsoluteLifetime := by
  unfold sessionIdleLifetime sessionAbsoluteLifetime days minutes
  norm_num

theorem new_browserSession (config : AuthConfig) (sessionId : SessionId) (accountId : AccountId)
    (now : Time) (sessionSecret csrfToken : String) :
    (config.browserSession sessionId accountId now sessionSecret csrfToken).New := by
  constructor
  · constructor
    · exact (min_eq_left (add_le_add_right sessionIdleLifetime_le now)).symm
    · rfl
  · rfl
  · rfl

theorem new_astrometrySession (config : AuthConfig) (sessionId : SessionId)
    (authenticated : AuthenticatedApiKey) (now : Time) (secret : String) :
    (config.astrometrySession sessionId authenticated now secret).New := by
  constructor
  · constructor
    · exact (min_eq_left (add_le_add_right sessionIdleLifetime_le now)).symm
    · rfl
  · rfl
  · rfl

theorem obeys_newBrowserSession (config : AuthConfig) (accountId : AccountId) (now : Time)
    (hsound : world.Sound since) :
    (config.newBrowserSession accountId now).Obeys ((identityDiscipline scope since).contract pid)
      (fun value later => Insertable pid value.1 later) world := by
  apply obeys_step hsound issues_randomSecret
  intro sessionSecret later hlater
  apply obeys_step hlater issues_randomSecret
  intro csrfToken later hlater
  have hdrawn : Auth.nowV7.Obeys ((identityDiscipline scope since).contract pid)
      (fun id later => Insertable pid
        (config.browserSession id accountId now sessionSecret csrfToken) later) later :=
    obeys_nowV7 (fun _ => rfl) fun id => new_browserSession config id accountId now _ _
  apply hdrawn.bind hlater
  intro id after _ hinsertable further hrespects _
  exact hinsertable.later hrespects

theorem issues_completion {α : Type} (completed : Option α) {β : Type} (make : α → β) :
    (Auth.orInvalid completed >>= fun completion =>
      (Program.done (make completion) : AuthProgram β)).Issues AuthRequest.Plain :=
  (issues_orInvalid completed).bind fun _ => trivial

theorem obeys_completeEmail (config : AuthConfig) (credential : EmailCredential)
    (hsound : world.Sound since) :
    (config.completeEmail credential).Obeys ((identityDiscipline scope since).contract pid)
      (fun _ _ => True) world := by
  apply obeys_step hsound (show Auth.utcNow.Issues AuthRequest.Plain from ⟨trivial, fun _ => trivial⟩)
  intro now later hlater
  apply obeys_step hlater (issues_orInvalid _)
  intro parsed later hlater
  apply obeys_step hlater (issues_repository (by exact rfl))
  intro found later hlater
  apply obeys_step hlater (issues_orInvalid _)
  intro challenge later hlater
  split_ifs
  · trivial
  · apply obeys_step hlater (issues_orInvalid _)
    intro emailLookup later hlater
    split_ifs
    · apply obeys_step hlater (show Auth.nowV7.Issues AuthRequest.Plain from ⟨trivial, fun _ => trivial⟩)
      intro accountId later hlater
      apply (obeys_newBrowserSession config accountId now hlater).bind hlater
      intro made later hlater hinsertable
      exact obeys_insert rfl hinsertable fun completed => issues_completion completed _
    · apply obeys_of_issues
      apply (issues_repository (by exact rfl)).bind
      intro _
      trivial

theorem obeys_completePasskeyAuthentication (config : AuthConfig) (challengeId : ChallengeId)
    (assertion : WebauthnAssertion) (hsound : world.Sound since) :
    (config.completePasskeyAuthentication challengeId assertion).Obeys
      ((identityDiscipline scope since).contract pid) (fun _ _ => True) world := by
  apply obeys_step hsound (show Auth.utcNow.Issues AuthRequest.Plain from ⟨trivial, fun _ => trivial⟩)
  intro now later hlater
  apply obeys_step hlater (issues_repository (by exact rfl))
  intro found later hlater
  apply obeys_step hlater (issues_orInvalid _)
  intro challenge later hlater
  apply obeys_step hlater (issues_orInvalid _)
  intro state later hlater
  apply obeys_step hlater (issues_orInvalid _)
  intro identified later hlater
  apply obeys_step hlater (issues_repository (by exact rfl))
  intro stored later hlater
  apply obeys_step hlater (issues_orInvalid _)
  intro persisted later hlater
  split
  · trivial
  · apply obeys_step hlater
      (show Auth.utcNow.Issues AuthRequest.Plain from ⟨trivial, fun _ => trivial⟩)
    intro now later hlater
    apply (obeys_newBrowserSession config _ now hlater).bind hlater
    intro made later hlater hinsertable
    exact obeys_insert rfl hinsertable fun completed => issues_completion completed _

theorem obeys_createAstrometrySession (config : AuthConfig) (apiKeyToken : String)
    (hsound : world.Sound since) :
    (config.createAstrometrySession apiKeyToken).Obeys
      ((identityDiscipline scope since).contract pid) (fun _ _ => True) world := by
  apply obeys_step hsound (issues_authenticateApiKey config apiKeyToken scopeSolveSubmit)
  intro authenticated later hlater
  apply obeys_step hlater (show Auth.utcNow.Issues AuthRequest.Plain from ⟨trivial, fun _ => trivial⟩)
  intro now later hlater
  apply obeys_step hlater (issues_recycle authenticated now)
  intro _ later hlater
  apply obeys_step hlater issues_randomSecret
  intro secret later hlater
  have hdrawn : Auth.nowV7.Obeys ((identityDiscipline scope since).contract pid)
      (fun id later => Insertable pid
        (config.astrometrySession id authenticated now secret) later) later :=
    obeys_nowV7 (fun _ => rfl) fun id => new_astrometrySession config id authenticated now _
  apply hdrawn.bind hlater
  intro id later hlater hinsertable
  exact obeys_insert rfl hinsertable fun _ => trivial

/-- A reading of the clock. -/
structure Reading (since now : Time) (world : IdentityWorld) : Prop where
  since : since ≤ now
  past : now ≤ world.clock

/-- A session that a process has seen at a reading of the clock. -/
structure Touchable (since now : Time) (sessionId : SessionId) (session : AuthSession)
    (world : IdentityWorld) : Prop where
  reading : Reading since now world
  seen : ∃ first ∈ world.minted, first.id = sessionId ∧
    first.absoluteExpiresAt = session.absoluteExpiresAt

theorem Reading.grows {now : Time} {later : IdentityWorld} (hreading : Reading since now world)
    (hgrows : IdentityWorld.Grows world later) : Reading since now later :=
  ⟨hreading.since, hreading.past.trans hgrows.clock⟩

theorem Touchable.grows {now : Time} {sessionId : SessionId} {session : AuthSession}
    {later : IdentityWorld} (htouchable : Touchable since now sessionId session world)
    (hgrows : IdentityWorld.Grows world later) : Touchable since now sessionId session later := by
  obtain ⟨first, hfirst, hid, habsolute⟩ := htouchable.seen
  exact ⟨htouchable.reading.grows hgrows, first, hgrows.minted first hfirst, hid, habsolute⟩

theorem obeys_utcNow : Auth.utcNow.Obeys ((identityDiscipline scope since).contract pid)
    (fun now later => Reading since now later) world := by
  apply obeys_request
  · intro later _ _
    trivial
  · intro later now after hsound _ hserves _ _ further hrespects _
    obtain ⟨hnow, hafter⟩ := hserves
    subst hnow hafter
    exact ⟨hsound.clock, hrespects.clock⟩

theorem obeys_session {now : Time} (accountId : AccountId) (sessionId : SessionId)
    (hreading : Reading since now world) :
    (Auth.repository (.session accountId sessionId)).Obeys
      ((identityDiscipline scope since).contract pid)
      (fun found later => ∀ session, found = some session →
        Touchable since now sessionId session later) world := by
  apply obeys_request
  · intro later _ _ session hsession
    cases hsession
  · intro later reply after hsound _ hserves _ hgrows
    obtain ⟨db, hserved, hafter⟩ := hserves
    cases hserved with
    | inr hfailed =>
        obtain ⟨message, hreply⟩ := hfailed.1
        rw [hreply]
        trivial
    | inl hanswers =>
        obtain ⟨hreply, hdb⟩ := hanswers
        rw [hdb, IdentityWorld.written_self] at hafter
        rw [hreply, hafter]
        intro further hrespects _ session hsession
        unfold IdentityDatabase.session at hsession
        obtain ⟨hfind, _⟩ := Option.filter_eq_some_iff.mp hsession
        obtain ⟨first, hfirst, hcontinues⟩ :=
          hsound.history session (KeyedTable.mem_of_find? hfind)
        have hid := KeyedTable.key_of_find? hfind
        rw [hafter] at hgrows
        refine ⟨(hreading.grows hgrows).grows hrespects.grows, first,
          hrespects.minted first hfirst, ?_, ?_⟩
        · rw [← hid, hcontinues]
        · rw [hcontinues]

theorem obeys_touch {now : Time} {accountId : AccountId} {sessionId : SessionId}
    {session : AuthSession} (htouchable : Touchable since now sessionId session world) :
    (touch session accountId sessionId now).Obeys ((identityDiscipline scope since).contract pid)
      (fun _ _ => True) world := by
  unfold touch
  split_ifs
  · apply obeys_request
    · intro later _ hrespects
      obtain ⟨first, hfirst, hid, habsolute⟩ := htouchable.seen
      have hreading := htouchable.reading.grows hrespects.grows
      exact ⟨hreading.since, hreading.past, first, hrespects.minted first hfirst, hid,
        by rw [habsolute]⟩
    · intro later reply after _ _ _ _ _
      exact obeys_of_issues ((issues_internal reply).bind fun _ => trivial)
  · exact fun _ _ _ => trivial

/-- A plain part that leaves a session touchable. -/
theorem obeys_keeping {α β : Type} {now : Time} {sessionId : SessionId} {session : AuthSession}
    {program : AuthProgram α} {f : α → AuthProgram β} (hsound : world.Sound since)
    (htouchable : Touchable since now sessionId session world)
    (hissues : program.Issues AuthRequest.Plain)
    (hnext : ∀ value later, later.Sound since → Touchable since now sessionId session later →
      (f value).Obeys ((identityDiscipline scope since).contract pid) (fun _ _ => True) later) :
    (program >>= f).Obeys ((identityDiscipline scope since).contract pid) (fun _ _ => True) world :=
  (obeys_plain hissues (fun _ _ hbefore hgrows => Touchable.grows hbefore hgrows) htouchable).bind
    hsound fun value later hlater hkept => hnext value later hlater hkept

theorem issues_mintingKeyWeight (session : AuthSession) (accountId : AccountId) (now : Time) :
    (AuthConfig.mintingKeyWeight session accountId now).Issues AuthRequest.Plain := by
  unfold AuthConfig.mintingKeyWeight
  split
  · trivial
  · apply (issues_repository (by exact rfl)).bind
    intro found
    apply (issues_orInvalid _).bind
    intro key
    apply (issues_touchKey _ _ _ _).bind
    intro _
    trivial

theorem obeys_authenticateBrowserSession (config : AuthConfig) (token : String)
    (csrfCookie : Option String) (hsound : world.Sound since) :
    (config.authenticateBrowserSession token csrfCookie).Obeys
      ((identityDiscipline scope since).contract pid) (fun _ _ => True) world := by
  apply obeys_step hsound (issues_orInvalid _)
  intro parsed later hlater
  apply obeys_utcNow.bind hlater
  intro now later hlater hreading
  apply (obeys_session parsed.1 parsed.2.1 hreading).bind hlater
  intro found later hlater hseen
  cases hfound : found.filter fun session => session.kind = .browser && session.live now &&
      session.tokenDigest = config.secretDigest parsed.2.2 with
  | none => trivial
  | some session =>
      have htouchable := hseen session (Option.filter_eq_some_iff.mp hfound).1
      apply obeys_keeping hlater htouchable (issues_activeAccount _)
      intro account later hlater htouchable
      apply (obeys_touch htouchable).bind hlater
      intro _ later hlater _ further _ _
      trivial

theorem obeys_authenticateAstrometrySession (config : AuthConfig) (token : String)
    (hsound : world.Sound since) :
    (config.authenticateAstrometrySession token).Obeys
      ((identityDiscipline scope since).contract pid) (fun _ _ => True) world := by
  apply obeys_step hsound (issues_orInvalid _)
  intro parsed later hlater
  apply obeys_utcNow.bind hlater
  intro now later hlater hreading
  apply (obeys_session parsed.1 parsed.2.1 hreading).bind hlater
  intro found later hlater hseen
  cases hfound : found.filter fun session => session.kind = .astrometry && session.live now &&
      session.tokenDigest = config.secretDigest parsed.2.2 with
  | none => trivial
  | some session =>
      have htouchable := hseen session (Option.filter_eq_some_iff.mp hfound).1
      apply obeys_keeping hlater htouchable (issues_activeAccount _)
      intro account later hlater htouchable
      apply obeys_keeping hlater htouchable (issues_mintingKeyWeight _ _ _)
      intro queueWeight later hlater htouchable
      apply (obeys_touch htouchable).bind hlater
      intro _ later hlater _ further _ _
      trivial

theorem obeys_purgeExpired : SeizaServer.purgeExpired.Obeys
    ((identityDiscipline scope since).contract pid) (fun _ _ => True) world := by
  apply obeys_request
  · intro later _ _
    trivial
  · intro later now after _ _ hserves _ _
    obtain ⟨hnow, hafter⟩ := hserves
    apply obeys_request
    · intro further _ hrespects
      change now ≤ further.clock
      rw [hnow, ← hafter]
      exact hrespects.clock
    · intro further reply _ _ _ _ _ _
      exact obeys_of_issues (issues_internal reply)

/-- Every call of the service obeys. -/
theorem obeys_program {call : AuthCall} (hserved : call.Served) (hsound : world.Sound since) :
    (call.program scope.config).Obeys ((identityDiscipline scope since).contract pid)
      (fun _ _ => True) world := by
  cases call with
  | startEmail email source => exact obeys_of_issues (issues_startEmail _ _ _)
  | completeEmail credential => exact obeys_completeEmail _ _ hsound
  | completePasskeyAuthentication challengeId assertion =>
      exact obeys_completePasskeyAuthentication _ _ _ hsound
  | authenticateBrowserSession token csrfCookie =>
      exact obeys_authenticateBrowserSession _ _ _ hsound
  | logout authenticated =>
      apply obeys_of_issues
      refine ⟨trivial, fun now => ?_⟩
      exact (issues_repository (by exact rfl)).bind fun _ => trivial
  | logoutAll authenticated =>
      apply obeys_of_issues
      exact ⟨trivial, fun now => issues_repository (by exact rfl)⟩
  | authenticateApiKey token requiredScope =>
      exact obeys_of_issues (issues_authenticateApiKey _ _ _)
  | createAstrometrySession apiKeyToken => exact obeys_createAstrometrySession _ _ hsound
  | authenticateAstrometrySession token => exact obeys_authenticateAstrometrySession _ _ hsound
  | purgeExpired => exact obeys_purgeExpired
  | repository call => exact obeys_of_issues (issues_repository (plain_of_outside hserved))

end Bodies

/-! ## One email sign-in alone -/

namespace IdentityWorld

/-- The answers to an email sign-in that runs alone while the database works. -/
def answerSignIn (pid : ℕ) (world : IdentityWorld) :
    (r : AuthRequest) → Except AuthError (IdentityWorld × r.Response)
  | .utcNow => .ok (world, world.clock)
  | .nowV7 =>
      let reply := BitVec.ofNat 128 (world.drawn.length + 1)
      if ∀ entry ∈ world.drawn, entry.2 ≠ reply then
        .ok ({ world with drawn := (pid, reply) :: world.drawn }, reply)
      else .error (.internal (.bail "the identifier was drawn before"))
  | .randomSecret => .ok (world, .ok "secret")
  | .repository (.challengeById challengeId) =>
      .ok (world, .ok (world.db.authChallenges.find? challengeId))
  | .repository (.completeEmailChallenge challengeId now maxAttempts newAccount newSession) =>
      match world.db.completeEmailChallenge challengeId now maxAttempts newAccount newSession with
      | .error cause => .error (.internal cause)
      | .ok (completed, db) => .ok (world.written db, .ok completed)
  | _ => .error (.internal (.bail "not a request of an email sign-in"))

/-- These answers are answers of the store. -/
theorem serves_answerSignIn {pid : ℕ} {world after : IdentityWorld} {r : AuthRequest}
    {reply : r.Response} (hanswer : answerSignIn pid world r = .ok (after, reply)) :
    Serves pid world r reply after := by
  cases r with
  | utcNow =>
      cases hanswer
      exact ⟨rfl, rfl⟩
  | nowV7 =>
      simp only [answerSignIn] at hanswer
      split at hanswer
      · rename_i hfresh
        cases hanswer
        exact ⟨hfresh, rfl⟩
      · cases hanswer
  | randomSecret =>
      cases hanswer
      exact rfl
  | repository call =>
      cases call with
      | challengeById challengeId =>
          cases hanswer
          exact ⟨_, .inl ⟨rfl, rfl⟩, (written_self _).symm⟩
      | completeEmailChallenge challengeId now maxAttempts newAccount newSession =>
          simp only [answerSignIn] at hanswer
          split at hanswer
          · cases hanswer
          · rename_i completed db hcompleted
            cases hanswer
            refine ⟨db, .inl ?_, rfl⟩
            simp only [IdentityDatabase.Answers, hcompleted]
            exact ⟨trivial, trivial⟩
      | _ => cases hanswer
  | _ => cases hanswer

/-- A challenge was sent to an address that has no account. -/
def challenged (config : AuthConfig) : IdentityWorld where
  db :=
    { accounts := ⟨.empty, List.nodup_nil, List.nodup_nil⟩
      authChallenges := KeyedTable.empty.append
        (config.emailChallenge 0 9 "ada@example.org" "link" "12345678") rfl
      authSessions := .empty
      apiKeys := .empty
      passkeyCredentials := .empty }
  clock := 0
  drawn := []
  minted := []

end IdentityWorld

/-- The call that answers the challenge with its code. -/
abbrev codeSignIn : AuthCall := .completeEmail (.code "ada@example.org" 9 "12345678")

def AuthConfig.signIn (config : AuthConfig) :
    IdentityWorld × Except AuthError CompletedBrowserSignIn :=
  (codeSignIn.program config).exec (IdentityWorld.answerSignIn 0) (.challenged config)

theorem exists_signIn_run {scope : IdentityScope} (hadmits : scope.admits codeSignIn)
    {after : IdentityWorld} {value : CompletedBrowserSignIn}
    (hsignIn : scope.config.signIn = (after, .ok value)) :
    ∃ labels, Run (identitySystem scope).Step (.idle (.challenged scope.config))
      (.start 0 codeSignIn :: labels)
      ⟨after, Function.update (fun _ => none) 0 (some ⟨codeSignIn, .done value⟩)⟩ := by
  have hanswer : ∀ store r later reply,
      IdentityWorld.answerSignIn 0 store r = .ok (later, reply) →
        (identitySystem scope).answers 0 store r reply later := by
    intro store r later reply hanswer
    exact IdentityWorld.serves_answerSignIn hanswer
  have hexec : ((identitySystem scope).body codeSignIn).exec (IdentityWorld.answerSignIn 0)
      (.challenged scope.config) = (after, .ok value) := hsignIn
  exact System.exists_run_of_call hanswer rfl hadmits hexec

end SeizaServer
