import SeizaServer.SessionUse

/-!
# How long a session lives

On the SQLx store: what every stored session satisfies, when a session is
refused, when it is accepted, and what the purge keeps.
-/

namespace SeizaServer

open Interaction Transition

/-- A store without sessions before any call. -/
def IdentityWorld.initial (db : IdentityDatabase) (clock : Time) : IdentityWorld :=
  ⟨{ db with authSessions := .empty }, clock, [], []⟩

section Runs

variable {scope : IdentityScope} {since : Time} {db : IdentityDatabase} {clock : Time}
  {config final : Configuration AuthCall AuthRequest AuthRequest.Response AuthError
    AuthCall.Result IdentityWorld}
  {labels past rest : List (Label AuthCall AuthRequest AuthRequest.Response AuthError)}

theorem sound_initial (db : IdentityDatabase) (clock : Time) :
    (IdentityWorld.initial db clock).Sound clock := by
  constructor
  · exact le_refl _
  · exact List.nodup_nil
  · exact List.nodup_nil
  · intro session hmem
    cases hmem
  · intro session hmem
    cases hmem
  · intro session hmem
    cases hmem

theorem respected_of_sound (hscope : ∀ call, scope.admits call → call.Served)
    (hrespected : (identityDiscipline scope since).Respected config)
    (hrun : Run (identitySystem scope).Step config labels final) :
    (identityDiscipline scope since).Respected final :=
  Run.preserves _ hrespected
    (fun _ _ _ hbefore hstep => hbefore.step
      (fun _ _ _ hsound hadmits => obeys_program (hscope _ hadmits) hsound) hstep) hrun

theorem respected_of_initial (hscope : ∀ call, scope.admits call → call.Served)
    (hrun : Run (identitySystem scope).Step (.idle (.initial db clock)) labels final) :
    (identityDiscipline scope clock).Respected final :=
  Discipline.respected_of_run
    (fun _ _ _ hsound hadmits => obeys_program (hscope _ hadmits) hsound)
    (sound_initial db clock) hrun

/-- What one step of the system does to the tables. -/
inductive DatabaseStep (scope : IdentityScope) (since : Time) (before after : IdentityWorld) :
    Label AuthCall AuthRequest AuthRequest.Response AuthError → Prop where
  | unchanged {label} (hdb : after.db = before.db) (hminted : after.minted = before.minted)
      (hclock : before.clock ≤ after.clock) : DatabaseStep scope since before after label
  | flipped (accountId : AccountId) (status : AccountStatus) (hflips : scope.flips)
      (hafter : after = before.setStatus accountId status) :
      DatabaseStep scope since before after .environment
  | answered (pid : ℕ) (call : IdentityCall) (reply : Except Fault call.Result)
      (hallows : before.Allows since pid (.repository call))
      (hanswers : before.db.Answers call reply after.db)
      (hafter : after = before.written after.db) :
      DatabaseStep scope since before after (.ask pid (.repository call) reply)

theorem databaseStep (hrespected : (identityDiscipline scope since).Respected config)
    {label : Label AuthCall AuthRequest AuthRequest.Response AuthError}
    (hstep : (identitySystem scope).Step config label final) :
    DatabaseStep scope since config.store final.store label := by
  cases hstep with
  | start pid call hfree hadmits => exact .unchanged rfl rfl (le_refl _)
  | halt pid call r next cause store hprocess hhalts =>
      have hsame : store = config.store := hhalts
      rw [hsame]
      exact .unchanged rfl rfl (le_refl _)
  | environment store hmoves =>
      cases hmoves with
      | tick clock hclock => exact .unchanged rfl rfl hclock
      | flip accountId status hflips => exact .flipped accountId status hflips rfl
  | ask pid call r next reply store hprocess hanswers =>
      have hallows := hrespected.guard hprocess
      cases r with
      | utcNow =>
          rw [show store = config.store from hanswers.2]
          exact .unchanged rfl rfl (le_refl _)
      | nowV7 =>
          rw [show store = _ from hanswers.2]
          exact .unchanged rfl rfl (le_refl _)
      | randomSecret =>
          rw [show store = config.store from hanswers]
          exact .unchanged rfl rfl (le_refl _)
      | randomCode =>
          rw [show store = config.store from hanswers]
          exact .unchanged rfl rfl (le_refl _)
      | checkEmailSend source email =>
          rw [show store = config.store from hanswers]
          exact .unchanged rfl rfl (le_refl _)
      | sendSignIn email =>
          rw [show store = config.store from hanswers]
          exact .unchanged rfl rfl (le_refl _)
      | repository called =>
          obtain ⟨db, hserves, hafter⟩ := hanswers
          cases hserves with
          | inl hanswered =>
              subst hafter
              exact .answered pid called reply hallows hanswered rfl
          | inr hfailed =>
              rw [hfailed.2, IdentityWorld.written_self] at hafter
              rw [hafter]
              exact .unchanged rfl rfl (le_refl _)

theorem DatabaseStep.clock_le {before after : IdentityWorld}
    {label : Label AuthCall AuthRequest AuthRequest.Response AuthError}
    (hstep : DatabaseStep scope since before after label) : before.clock ≤ after.clock := by
  cases hstep with
  | unchanged hdb hminted hclock => exact hclock
  | flipped accountId status hflips hafter =>
      rw [hafter]
      exact le_refl _
  | answered pid call reply hallows hanswers hafter =>
      rw [hafter]
      exact le_refl _

theorem DatabaseStep.minted_stays {before after : IdentityWorld}
    {label : Label AuthCall AuthRequest AuthRequest.Response AuthError}
    (hstep : DatabaseStep scope since before after label) {first : AuthSession}
    (hfirst : first ∈ before.minted) : first ∈ after.minted := by
  cases hstep with
  | unchanged hdb hminted hclock =>
      rw [hminted]
      exact hfirst
  | flipped accountId status hflips hafter =>
      rw [hafter]
      exact hfirst
  | answered pid call reply hallows hanswers hafter =>
      rw [hafter]
      exact List.mem_append_right _ hfirst

/-! ## Refusal -/

/-- A session was revoked, and it is still revoked if it is still there. -/
def Cut (sessionId : SessionId) (world : IdentityWorld) : Prop :=
  (∃ first ∈ world.minted, first.id = sessionId) ∧
    ∀ session, world.db.authSessions.find? sessionId = some session → session.revokedAt ≠ none

theorem Cut.step {sessionId : SessionId} {before after : IdentityWorld}
    {label : Label AuthCall AuthRequest AuthRequest.Response AuthError}
    (hcut : Cut sessionId before) (hstep : DatabaseStep scope since before after label) :
    Cut sessionId after := by
  obtain ⟨⟨first, hfirst, hid⟩, hrevoked⟩ := hcut
  cases hstep with
  | unchanged hdb hminted hclock =>
      unfold Cut
      rw [hdb, hminted]
      exact ⟨⟨first, hfirst, hid⟩, hrevoked⟩
  | flipped accountId status hflips hafter =>
      subst hafter
      exact ⟨⟨first, hfirst, hid⟩, hrevoked⟩
  | answered pid call reply hallows hanswers hafter =>
      constructor
      · refine ⟨first, ?_, hid⟩
        rw [hafter]
        exact List.mem_append_right _ hfirst
      · intro session hfind
        have hkey := KeyedTable.key_of_find? hfind
        rw [← hkey] at hfind
        cases hanswers.session_origin hfind with
        | stayed old hbefore hsession =>
            rw [hkey] at hbefore
            have hold := hrevoked old hbefore
            cases hsession with
            | kept => exact hold
            | revoked revokedAt hcall hlive => exact absurd hlive hold
            | touched lastSeenAt expiresAt hcall hlive habsolute => exact absurd hlive hold
        | inserted newSession hcall hnew hsession _ =>
            have hsame : newSession.id = sessionId := by
              rw [← hkey, hsession]
            exact absurd (hid.trans hsame.symm) ((hallows.new hcall).2.1 first hfirst)

/-! ### The last use -/

/-- A process that authenticates the session took this reading of the clock in
the first part of a run, and touched the session with it. -/
def UsedAt (authConfig : AuthConfig)
    (past labels : List (Label AuthCall AuthRequest AuthRequest.Response AuthError))
    (sessionId : SessionId) (used : Time) : Prop :=
  ∃ user call token accountId secret, .start user call ∈ past ∧
    call.sessionToken? = some token ∧
    authConfig.parseSessionToken token = some (accountId, sessionId, secret) ∧
    .ask user .utcNow used ∈ past ∧
    ∃ expiresAt, .ask user (.repository (.touchSession accountId sessionId used expiresAt))
      (.ok true) ∈ labels

theorem UsedAt.mono {authConfig : AuthConfig}
    {labels more : List (Label AuthCall AuthRequest AuthRequest.Response AuthError)}
    {sessionId : SessionId} {used : Time} (hused : UsedAt authConfig past labels sessionId used)
    (hmore : ∀ label ∈ labels, label ∈ more) : UsedAt authConfig past more sessionId used := by
  obtain ⟨user, call, token, accountId, secret, hstart, htoken, hparsed, hnow, expiresAt,
    htouch⟩ := hused
  exact ⟨user, call, token, accountId, secret, hstart, htoken, hparsed, hnow, expiresAt,
    hmore _ htouch⟩

/-- A process that is there makes a call of the service. -/
theorem served_of_process (hscope : ∀ call, scope.admits call → call.Served)
    {store : IdentityWorld} (hrun : Run (identitySystem scope).Step (.idle store) labels final)
    {pid : ℕ} {call : AuthCall} {program : AuthProgram call.Result}
    (hprocess : final.process pid = some ⟨call, program⟩) : call.Served := by
  have hstart := System.start_mem_of_process hrun hprocess
  obtain ⟨front, back, hsplit⟩ := List.append_of_mem hstart
  rw [hsplit] at hrun
  obtain ⟨_, _, _, hstep, _⟩ := run_append.mp hrun
  cases hstep with
  | start pid call hfree hadmits => exact hscope call hadmits

/-- What a process that is about to touch has asked. -/
theorem asked_of_touch (hscope : ∀ call, scope.admits call → call.Served)
    {store : IdentityWorld} (hrun : Run (identitySystem scope).Step (.idle store) labels final)
    {pid : ℕ} {call : AuthCall} {accountId : AccountId} {sessionId : SessionId}
    {lastSeenAt expiresAt : Time} {next : Except Fault Bool → AuthProgram call.Result}
    (hprocess : final.process pid = some ⟨call,
      .request (.repository (.touchSession accountId sessionId lastSeenAt expiresAt)) next⟩) :
    ∃ token session, call.sessionToken? = some token ∧
      Asked scope.config token (answersOf pid labels) accountId sessionId lastSeenAt session := by
  cases System.replays_of_run hrun hprocess with
  | inl hfault =>
      obtain ⟨cause, hfault⟩ := hfault
      cases hfault
  | inr hreplays => exact replays_touch (served_of_process hscope hrun hprocess) hreplays

/-- A touch in a run is a use. -/
theorem usedAt_of_touch (hscope : ∀ call, scope.admits call → call.Served)
    {store : IdentityWorld} (hrun : Run (identitySystem scope).Step (.idle store) labels final)
    {user : ℕ} {accountId : AccountId} {sessionId : SessionId} {used expiresAt : Time}
    (hmem : .ask user (.repository (.touchSession accountId sessionId used expiresAt)) (.ok true) ∈
      labels) : UsedAt scope.config labels labels sessionId used := by
  obtain ⟨first, second, before, call, next, after, hlabels, hfirst, hprocess, _, _⟩ :=
    System.exists_of_ask hrun hmem
  obtain ⟨token, session, htoken, hasked⟩ := asked_of_touch hscope hfirst hprocess
  obtain ⟨secret, hparsed, _⟩ := hasked.parsed
  obtain ⟨rest, hanswers⟩ := hasked.asked
  have hsub : ∀ label ∈ first, label ∈ labels := by
    intro label hlabel
    rw [hlabels]
    exact List.mem_append_left _ hlabel
  have hreading : .ask user .utcNow used ∈ first := by
    apply mem_answersOf.mp
    rw [hanswers]
    exact List.mem_cons_self
  exact ⟨user, call, token, accountId, secret,
    hsub _ (System.start_mem_of_process hfirst hprocess), htoken, hparsed, hsub _ hreading,
    expiresAt, hmem⟩

/-- The last use that a stored session shows is its creation or a touch. -/
theorem lastSeenAt_of_run (hscope : ∀ call, scope.admits call → call.Served)
    (hrun : Run (identitySystem scope).Step (.idle (.initial db clock)) labels final) :
    ∀ session ∈ final.store.db.authSessions.rows, session.lastSeenAt = session.createdAt ∨
      ∃ user expiresAt, .ask user (.repository
        (.touchSession session.accountId session.id session.lastSeenAt expiresAt)) (.ok true) ∈
          labels := by
  have hall := Run.invariant
    (I := fun past (state : Configuration AuthCall AuthRequest AuthRequest.Response AuthError
        AuthCall.Result IdentityWorld) =>
      (identityDiscipline scope clock).Respected state ∧
        ∀ session ∈ state.store.db.authSessions.rows, session.lastSeenAt = session.createdAt ∨
          ∃ user expiresAt, .ask user (.repository (.touchSession session.accountId session.id
            session.lastSeenAt expiresAt)) (.ok true) ∈ past)
    ⟨respected_of_initial hscope (run_nil.mpr rfl), (by intro session hmem; cases hmem)⟩ ?_ hrun
  · exact hall.2
  · intro past before label after hpast hstep
    obtain ⟨hrespected, hseen⟩ := hpast
    refine ⟨respected_of_sound hscope hrespected (run_singleton.mpr hstep), ?_⟩
    intro session hmem
    have hlater : ∀ old ∈ before.store.db.authSessions.rows,
        old.lastSeenAt = session.lastSeenAt → old.createdAt = session.createdAt →
        old.accountId = session.accountId → old.id = session.id →
        session.lastSeenAt = session.createdAt ∨ ∃ user expiresAt,
          .ask user (.repository (.touchSession session.accountId session.id session.lastSeenAt
            expiresAt)) (.ok true) ∈ past ++ [label] := by
      intro old hold hlast hcreated haccount hid
      rw [← hlast, ← hcreated, ← haccount, ← hid]
      cases hseen old hold with
      | inl hunused => exact .inl hunused
      | inr hused =>
          obtain ⟨user, expiresAt, hask⟩ := hused
          exact .inr ⟨user, expiresAt, List.mem_append_left _ hask⟩
    cases databaseStep hrespected hstep with
    | unchanged hdb hminted hclock =>
        rw [hdb] at hmem
        exact hlater session hmem rfl rfl rfl rfl
    | flipped accountId status hflips hafter =>
        rw [hafter] at hmem
        exact hlater session hmem rfl rfl rfl rfl
    | answered pid call reply hallows hanswers hafter =>
        cases hanswers.session_origin (KeyedTable.find?_of_mem hmem) with
        | stayed old hbefore hsession =>
            have hold := KeyedTable.mem_of_find? hbefore
            cases hsession with
            | kept => exact hlater session hold rfl rfl rfl rfl
            | revoked revokedAt hcall hlive => exact hlater old hold rfl rfl rfl rfl
            | touched lastSeenAt expiresAt hcall hlive habsolute =>
                subst hcall
                have hreply : reply = .ok true := by
                  rw [hanswers.1, IdentityDatabase.touchSession_fst
                    (KeyedTable.find?_of_mem hold) hlive habsolute]
                rw [hreply]
                exact .inr ⟨pid, expiresAt, List.mem_append_right _ (List.mem_singleton_self _)⟩
        | inserted newSession hcall hnew hsession _ =>
            have hunseen := (hallows.new hcall).2.2.unseen
            left
            rw [hsession]
            exact hunseen

/-- The clock never runs backwards. -/
theorem clock_le_of_run (hscope : ∀ call, scope.admits call → call.Served)
    (hrespected : (identityDiscipline scope since).Respected config)
    (hrun : Run (identitySystem scope).Step config labels final) :
    config.store.clock ≤ final.store.clock := by
  have hall := Run.preserves
    (fun state => (identityDiscipline scope since).Respected state ∧
      config.store.clock ≤ state.store.clock)
    ⟨hrespected, le_refl _⟩ ?_ hrun
  · exact hall.2
  · intro before label after hbefore hstep
    exact ⟨respected_of_sound hscope hbefore.1 (run_singleton.mpr hstep),
      hbefore.2.trans (databaseStep hbefore.1 hstep).clock_le⟩

theorem grows_of_run (hscope : ∀ call, scope.admits call → call.Served)
    (hrespected : (identityDiscipline scope since).Respected config)
    (hrun : Run (identitySystem scope).Step config labels final) {first : AuthSession}
    (hfirst : first ∈ config.store.minted) : first ∈ final.store.minted := by
  have hall := Run.preserves
    (fun state => (identityDiscipline scope since).Respected state ∧ first ∈ state.store.minted)
    ⟨hrespected, hfirst⟩ ?_ hrun
  · exact hall.2
  · intro before label after hbefore hstep
    exact ⟨respected_of_sound hscope hbefore.1 (run_singleton.mpr hstep),
      (databaseStep hbefore.1 hstep).minted_stays hbefore.2⟩

theorem cut_of_run (hscope : ∀ call, scope.admits call → call.Served)
    (hrespected : (identityDiscipline scope since).Respected config)
    (hrun : Run (identitySystem scope).Step config labels final) {sessionId : SessionId}
    (hcut : Cut sessionId config.store) : Cut sessionId final.store := by
  have hall := Run.preserves
    (fun state => (identityDiscipline scope since).Respected state ∧ Cut sessionId state.store)
    ⟨hrespected, hcut⟩ ?_ hrun
  · exact hall.2
  · intro before label after hbefore hstep
    exact ⟨respected_of_sound hscope hbefore.1 (run_singleton.mpr hstep),
      hbefore.2.step (databaseStep hbefore.1 hstep)⟩

/-- A stored session that is revoked stays cut. -/
theorem cut_of_revoked {world : IdentityWorld} (hsound : world.Sound since)
    {session : AuthSession} (hfind : world.db.authSessions.find? session.id = some session)
    (hrevoked : session.revokedAt ≠ none) : Cut session.id world := by
  obtain ⟨first, hfirst, hcontinues⟩ := hsound.history session (KeyedTable.mem_of_find? hfind)
  constructor
  · exact ⟨first, hfirst, by rw [hcontinues]⟩
  · intro other hother
    rw [hfind] at hother
    rw [← Option.some.inj hother]
    exact hrevoked

/-- A session is read as it is stored. -/
theorem session_of_ask {user : ℕ} {accountId : AccountId} {sessionId : SessionId}
    {session : AuthSession} (hstep : (identitySystem scope).Step config
      (.ask user (.repository (.session accountId sessionId)) (.ok (some session))) final) :
    config.store.db.session accountId sessionId = some session := by
  cases hstep with
  | ask pid call r next reply store hprocess hserves =>
      obtain ⟨_, hserved, _⟩ := hserves
      cases hserved with
      | inl hanswers => exact (Except.ok.inj hanswers.1).symm
      | inr hfailed =>
          obtain ⟨message, hreply⟩ := hfailed.1
          cases hreply

/-- A reading of the clock is taken after the state before it. -/
theorem clock_le_reading (hscope : ∀ call, scope.admits call → call.Served)
    {middle : Configuration AuthCall AuthRequest AuthRequest.Response AuthError AuthCall.Result
      IdentityWorld}
    (hpast : Run (identitySystem scope).Step (.idle (.initial db clock)) past middle)
    (hrest : Run (identitySystem scope).Step middle rest final) {pid : ℕ} {now : Time}
    (hreading : .ask pid .utcNow now ∈ rest) : middle.store.clock ≤ now := by
  obtain ⟨first, _, before, _, _, _, _, hfirst, _, hserves, _⟩ :=
    System.exists_of_ask hrest hreading
  rw [show now = before.store.clock from hserves.1]
  exact clock_le_of_run hscope (respected_of_initial hscope hpast) hfirst

/-- By this time every use of a session lies at least thirty days back. -/
structure Unused (authConfig : AuthConfig)
    (past labels : List (Label AuthCall AuthRequest AuthRequest.Response AuthError))
    (world : IdentityWorld) (sessionId : SessionId) (bound : Time) : Prop where
  created : ∀ first ∈ world.minted, first.id = sessionId →
    first.createdAt + sessionIdleLifetime ≤ bound
  used : ∀ used, UsedAt authConfig past labels sessionId used → used + sessionIdleLifetime ≤ bound

theorem Unused.of_later {authConfig : AuthConfig}
    {labels more : List (Label AuthCall AuthRequest AuthRequest.Response AuthError)}
    {before after : IdentityWorld} {sessionId : SessionId} {bound : Time}
    (hunused : Unused authConfig past more after sessionId bound)
    (hmore : ∀ label ∈ labels, label ∈ more)
    (hminted : ∀ first ∈ before.minted, first ∈ after.minted) :
    Unused authConfig past labels before sessionId bound :=
  ⟨fun first hfirst => hunused.created first (hminted first hfirst),
    fun used hused => hunused.used used (hused.mono hmore)⟩

theorem expiresAt_le_of_lawful {session : AuthSession} (hlawful : session.Lawful) :
    session.expiresAt ≤ session.lastSeenAt + sessionIdleLifetime := by
  rw [hlawful.1]
  exact min_le_left _ _

/-- A stored session that nobody uses has expired. -/
theorem expired_of_unused (hscope : ∀ call, scope.admits call → call.Served)
    (hrun : Run (identitySystem scope).Step (.idle (.initial db clock)) labels final)
    {sessionId : SessionId} {bound : Time}
    (hunused : Unused scope.config labels labels final.store sessionId bound)
    {session : AuthSession} (hmem : session ∈ final.store.db.authSessions.rows)
    (hid : session.id = sessionId) : session.expiresAt ≤ bound := by
  have hsound := (respected_of_initial hscope hrun).1
  apply (expiresAt_le_of_lawful (hsound.lawful session hmem)).trans
  cases lastSeenAt_of_run hscope hrun session hmem with
  | inl hunseen =>
      obtain ⟨first, hfirst, hcontinues⟩ := hsound.history session hmem
      have hcreated := hunused.created first hfirst (by rw [← hid, hcontinues])
      rw [hunseen, show session.createdAt = first.createdAt by rw [hcontinues]]
      exact hcreated
  | inr htouched =>
      obtain ⟨user, expiresAt, htouch⟩ := htouched
      rw [hid] at htouch
      exact hunused.used _ (usedAt_of_touch hscope hrun htouch)

/-- A session that has expired stays expired, unless a reading of the clock from
before is still to be written. -/
theorem expired_of_run (hscope : ∀ call, scope.admits call → call.Served)
    {middle : Configuration AuthCall AuthRequest AuthRequest.Response AuthError AuthCall.Result
      IdentityWorld}
    (hpast : Run (identitySystem scope).Step (.idle (.initial db clock)) past middle)
    (hrest : Run (identitySystem scope).Step middle rest final) {sessionId : SessionId}
    (hunused : Unused scope.config past (past ++ rest) final.store sessionId middle.store.clock) :
    ∀ session ∈ final.store.db.authSessions.rows, session.id = sessionId →
      session.expiresAt ≤ middle.store.clock := by
  have hall := Run.invariant
    (I := fun front (state : Configuration AuthCall AuthRequest AuthRequest.Response AuthError
        AuthCall.Result IdentityWorld) =>
      Run (identitySystem scope).Step middle front state ∧
        (Unused scope.config past (past ++ front) state.store sessionId middle.store.clock →
          (∀ session ∈ state.store.db.authSessions.rows, session.id = sessionId →
            session.expiresAt ≤ middle.store.clock) ∧
          ∀ user accountId session, .ask user (.repository (.session accountId sessionId))
            (.ok (some session)) ∈ front → session.expiresAt ≤ middle.store.clock)) ?_ ?_ hrest
  · exact (hall.2 hunused).1
  · refine ⟨run_nil.mpr rfl, fun hunused => ⟨?_, ?_⟩⟩
    · intro session hmem hid
      rw [List.append_nil] at hunused
      exact expired_of_unused hscope hpast hunused hmem hid
    · intro user accountId session hmem
      cases hmem
  · intro front before label after hfront hstep
    obtain ⟨hrun, hexpired⟩ := hfront
    refine ⟨run_append.mpr ⟨before, hrun, run_singleton.mpr hstep⟩, fun hunused => ?_⟩
    have hwhole : Run (identitySystem scope).Step (.idle (.initial db clock)) (past ++ front)
        before := run_append.mpr ⟨middle, hpast, hrun⟩
    have hrespected := respected_of_initial hscope hwhole
    have hmoved := databaseStep hrespected hstep
    have hbefore := hexpired (hunused.of_later (by
      intro label hlabel
      rw [← List.append_assoc]
      exact List.mem_append_left _ hlabel) fun first hfirst => hmoved.minted_stays hfirst)
    constructor
    · intro session hmem hid
      have hkept : ∀ old ∈ before.store.db.authSessions.rows, old.id = session.id →
          old.expiresAt = session.expiresAt → session.expiresAt ≤ middle.store.clock := by
        intro old hold hsame hexpires
        rw [← hexpires]
        exact hbefore.1 old hold (hsame.trans hid)
      have hafter := (respected_of_sound hscope hrespected (run_singleton.mpr hstep)).1
      cases hmoved with
      | unchanged hdb hminted hclock =>
          rw [hdb] at hmem
          exact hkept session hmem rfl rfl
      | flipped accountId status hflips hsame =>
          rw [hsame] at hmem
          exact hkept session hmem rfl rfl
      | answered pid call reply hallows hanswers hsame =>
          cases hanswers.session_origin (KeyedTable.find?_of_mem hmem) with
          | stayed old hfound hsession =>
              have hold := KeyedTable.mem_of_find? hfound
              cases hsession with
              | kept => exact hkept session hold rfl rfl
              | revoked revokedAt hcall hlive => exact hkept old hold rfl rfl
              | touched lastSeenAt expiresAt hcall hlive habsolute =>
                  subst hcall
                  apply (expiresAt_le_of_lawful (hafter.lawful _ hmem)).trans
                  change lastSeenAt + sessionIdleLifetime ≤ middle.store.clock
                  have hreply : reply = .ok true := by
                    rw [hanswers.1, IdentityDatabase.touchSession_fst
                      (KeyedTable.find?_of_mem hold) hlive habsolute]
                  subst hreply
                  have hsessionId : old.id = sessionId := hid
                  obtain ⟨call, next, hprocess⟩ := System.process_of_ask hstep
                  obtain ⟨token, seen, htoken, hasked⟩ := asked_of_touch hscope hwhole hprocess
                  obtain ⟨secret, hparsed, _⟩ := hasked.parsed
                  obtain ⟨answers, hanswered⟩ := hasked.asked
                  rw [answersOf_append] at hanswered
                  rw [hsessionId] at hparsed hanswered
                  cases hpastAnswers : answersOf pid past with
                  | nil =>
                      -- The reading is at least the bound, but the session it
                      -- was taken for has expired.
                      rw [hpastAnswers, List.nil_append] at hanswered
                      have hread : .ask pid (.repository (.session old.accountId sessionId))
                          (.ok (some seen)) ∈ front := by
                        apply mem_answersOf.mp
                        rw [hanswered]
                        exact List.mem_cons_of_mem _ List.mem_cons_self
                      have hreading : .ask pid .utcNow lastSeenAt ∈ front := by
                        apply mem_answersOf.mp
                        rw [hanswered]
                        exact List.mem_cons_self
                      have hlate := hbefore.2 pid _ seen hread
                      have hnow := clock_le_reading hscope hpast hrun hreading
                      have hlive := hasked.live
                      unfold AuthSession.live at hlive
                      simp only [Bool.and_eq_true, decide_eq_true_eq] at hlive
                      exact absurd (hlive.1.2.trans_le hlate) (not_lt.mpr hnow)
                  | cons answer others =>
                      rw [hpastAnswers, List.cons_append, List.cons.injEq] at hanswered
                      have hreading : .ask pid .utcNow lastSeenAt ∈ past := by
                        apply mem_answersOf.mp
                        rw [hpastAnswers, hanswered.1]
                        exact List.mem_cons_self
                      have hstart : .start pid call ∈ past := by
                        have hstarted := System.start_mem_of_process hwhole hprocess
                        rw [List.mem_append] at hstarted
                        cases hstarted with
                        | inl hearly => exact hearly
                        | inr hlater =>
                            exact absurd hreading
                              (System.ask_not_mem_of_start hpast hrun hlater)
                      apply hunused.used
                      refine ⟨pid, call, token, old.accountId, secret, hstart, htoken, hparsed,
                        hreading, expiresAt, ?_⟩
                      rw [← hsessionId]
                      simp
          | inserted newSession hcall hnew hsession _ =>
              have hnewSession := (hallows.new hcall).2.2
              have hseen : session.lastSeenAt = session.createdAt := by
                rw [hsession]
                exact hnewSession.unseen
              apply (expiresAt_le_of_lawful (hafter.lawful session hmem)).trans
              rw [hseen]
              obtain ⟨first, hfirst, hcontinues⟩ := hafter.history session hmem
              rw [show session.createdAt = first.createdAt by rw [hcontinues]]
              exact hunused.created first hfirst (by rw [← hid, hcontinues])
    · intro user accountId session hmem
      rw [List.mem_append, List.mem_singleton] at hmem
      cases hmem with
      | inl hearly => exact hbefore.2 user accountId session hearly
      | inr hlast =>
          subst hlast
          have hfound := session_of_ask hstep
          have hfind := (Option.filter_eq_some_iff.mp hfound).1
          exact hbefore.1 session (KeyedTable.mem_of_find? hfind) (KeyedTable.key_of_find? hfind)

/-- What a successful authentication that started after some state of the run
says about its session. -/
theorem accepted_of_run (hscope : ∀ call, scope.admits call → call.Served)
    {middle : Configuration AuthCall AuthRequest AuthRequest.Response AuthError AuthCall.Result
      IdentityWorld}
    (hpast : Run (identitySystem scope).Step (.idle (.initial db clock)) past middle)
    (hrest : Run (identitySystem scope).Step middle rest final) {pid : ℕ} {call : AuthCall}
    {value : call.Result} (hstart : .start pid call ∈ rest)
    (hdone : final.process pid = some ⟨call, .done value⟩) {token : String}
    (htoken : call.sessionToken? = some token) :
    ∃ accountId sessionId secret,
      scope.config.parseSessionToken token = some (accountId, sessionId, secret) ∧
      ¬ Cut sessionId middle.store ∧
      (∃ first ∈ final.store.minted, first.id = sessionId ∧
        middle.store.clock < first.createdAt + sessionAbsoluteLifetime) ∧
      ¬ Unused scope.config past (past ++ rest) final.store sessionId middle.store.clock := by
  have hrun : Run (identitySystem scope).Step (.idle (.initial db clock)) (past ++ rest) final :=
    run_append.mpr ⟨middle, hpast, hrest⟩
  have hmiddle := respected_of_initial hscope hpast
  cases System.replays_of_run hrun hdone with
  | inl hfault =>
      obtain ⟨cause, hfault⟩ := hfault
      cases hfault
  | inr hreplays =>
      obtain ⟨accountId, sessionId, now, session, hasked⟩ := replays_authenticate htoken hreplays
      obtain ⟨secret, hparsed, _⟩ := hasked.parsed
      obtain ⟨answers, hanswered⟩ := hasked.asked
      have hlater : ∀ {r : AuthRequest} {reply : r.Response},
          (⟨r, reply⟩ : (r : AuthRequest) × r.Response) ∈ answersOf pid (past ++ rest) →
            .ask pid r reply ∈ rest := by
        intro r reply hmem
        have hlabel := mem_answersOf.mp hmem
        rw [List.mem_append] at hlabel
        exact hlabel.resolve_left (System.ask_not_mem_of_start hpast hrest hstart)
      have hreading : .ask pid .utcNow now ∈ rest :=
        hlater (by rw [hanswered]; exact List.mem_cons_self)
      have hread : .ask pid (.repository (.session accountId sessionId)) (.ok (some session)) ∈
          rest :=
        hlater (by rw [hanswered]; exact List.mem_cons_of_mem _ List.mem_cons_self)
      have hnow := clock_le_reading hscope hpast hrest hreading
      obtain ⟨first, second, before, asking, next, after, hsplit, hfirst, hprocess, hserves,
        hsecond⟩ := System.exists_of_ask hrest hread
      have hbefore := respected_of_sound hscope hmiddle hfirst
      have hsecondRun := run_cons.mpr
        ⟨_, .ask pid asking _ next _ after hprocess hserves, hsecond⟩
      have hfind := (Option.filter_eq_some_iff.mp (session_of_ask
        (.ask pid asking _ next _ after hprocess hserves))).1
      have hid := KeyedTable.key_of_find? hfind
      have hrow := KeyedTable.mem_of_find? hfind
      have hlive := hasked.live
      unfold AuthSession.live at hlive
      simp only [Bool.and_eq_true, Option.isNone_iff_eq_none, decide_eq_true_eq] at hlive
      obtain ⟨⟨hunrevoked, hidle⟩, habsolute⟩ := hlive
      refine ⟨accountId, sessionId, secret, hparsed, ?_, ?_, ?_⟩
      · intro hcut
        exact (cut_of_run hscope hmiddle hfirst hcut).2 session hfind hunrevoked
      · obtain ⟨minted, hminted, hcontinues⟩ := hbefore.1.history session hrow
        refine ⟨minted, grows_of_run hscope hbefore hsecondRun hminted, ?_, ?_⟩
        · rw [← hid, hcontinues]
        · have hcreated : session.createdAt = minted.createdAt := by rw [hcontinues]
          rw [← hcreated, ← (hbefore.1.lawful session hrow).2]
          exact hnow.trans_lt habsolute
      · intro hunused
        have hexpired := expired_of_run hscope hpast hfirst (hunused.of_later (by
          intro label hlabel
          rw [hsplit, ← List.append_assoc]
          exact List.mem_append_left _ hlabel)
          fun minted hminted => grows_of_run hscope hbefore hsecondRun hminted) session hrow hid
        exact absurd (hnow.trans_lt hidle) (not_lt.mpr hexpired)

end Runs

end SeizaServer
