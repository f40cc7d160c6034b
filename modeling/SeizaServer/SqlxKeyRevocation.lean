import SeizaServer.ApiKeyUse
import SeizaServer.SessionLifetime

/-!
# Revoking an API key on the SQLx store

A key that is revoked stays revoked, and whatever depends on it reads it first.
-/

namespace SeizaServer

open Interaction Transition

/-- The key is not there, or revoked. -/
def IdentityDatabase.KeyDead (db : IdentityDatabase) (accountId : AccountId) (keyId : ApiKeyId) :
    Prop :=
  ∀ key, db.apiKey accountId keyId = some key → key.revokedAt ≠ none

namespace IdentityDatabase

variable {db after : IdentityDatabase} {call : IdentityCall} {reply : Except Fault call.Result}
  {accountId : AccountId} {keyId : ApiKeyId}

theorem KeyDead.answers (hdead : db.KeyDead accountId keyId)
    (hanswers : db.Answers call reply after) : after.KeyDead accountId keyId := by
  intro key hfound
  obtain ⟨hfind, haccount⟩ := Option.filter_eq_some_iff.mp hfound
  have hmoved := hanswers.key_step keyId
  rw [hfind] at hmoved
  cases hold : db.apiKeys.find? keyId with
  | none =>
      rw [hold] at hmoved
      cases hmoved
  | some old =>
      rw [hold] at hmoved
      have hread : old.accountId = key.accountId → old.revokedAt ≠ none := by
        intro hsame
        apply hdead old
        unfold apiKey
        rw [hold, Option.filter_some, if_pos]
        rw [hsame]
        exact haccount
      cases hmoved with
      | some hkept =>
          cases hkept with
          | kept => exact hread rfl
          | touched lastUsedAt hlive => exact absurd hlive (hread rfl)
          | revoked revokedAt hlive hcall => exact nofun

/-- After a revocation that was answered the key is dead. -/
theorem keyDead_of_revokeApiKey (db : IdentityDatabase) (accountId : AccountId) (keyId : ApiKeyId)
    (revokedAt : Time) : (db.revokeApiKey accountId keyId revokedAt).2.KeyDead accountId keyId := by
  intro key hfound
  unfold revokeApiKey at hfound
  dsimp only at hfound
  split_ifs at hfound with hnone
  · intro hlive
    unfold KeyedTable.affected at hnone
    rw [List.countP_eq_zero] at hnone
    obtain ⟨hfind, haccount⟩ := Option.filter_eq_some_iff.mp hfound
    have hid := KeyedTable.key_of_find? hfind
    apply hnone key (KeyedTable.mem_of_find? hfind)
    rw [decide_eq_true_eq] at haccount
    simp [hid, haccount, hlive]
  · obtain ⟨hfind, haccount⟩ := Option.filter_eq_some_iff.mp hfound
    change (db.apiKeys.modify _ _ (by intro; rfl)).find? keyId = some key at hfind
    rw [KeyedTable.find?_modify] at hfind
    obtain ⟨old, hold, hkey⟩ := Option.map_eq_some_iff.mp hfind
    have hid := KeyedTable.key_of_find? hold
    split_ifs at hkey with hselected
    · rw [← hkey]
      intro hlive
      cases hlive
    · rw [decide_eq_true_eq] at haccount
      rw [← hkey] at haccount ⊢
      intro hlive
      apply hselected
      simp [hid, haccount, hlive]

/-- A revocation leaves the sessions of other keys alone. -/
theorem revokeApiKey_other (revokedAt : Time) {session : AuthSession}
    (hfind : db.authSessions.find? session.id = some session)
    (hother : ¬ (session.accountId = accountId ∧ session.apiKeyId = some keyId)) :
    (db.revokeApiKey accountId keyId revokedAt).2.authSessions.find? session.id = some session := by
  unfold revokeApiKey
  dsimp only
  split_ifs
  · exact hfind
  · change (db.authSessions.modify _ _ (by intro; rfl)).find? session.id = some session
    rw [KeyedTable.find?_modify, hfind, Option.map_some]
    rw [if_neg]
    simp only [Bool.and_eq_true, decide_eq_true_eq, not_and]
    intro hselected
    exact absurd hselected hother

end IdentityDatabase

section Runs

variable {scope : IdentityScope} {since : Time} {db : IdentityDatabase} {clock : Time}
  {config final : Configuration AuthCall AuthRequest AuthRequest.Response AuthError
    AuthCall.Result IdentityWorld}
  {labels past rest : List (Label AuthCall AuthRequest AuthRequest.Response AuthError)}
  {accountId : AccountId} {keyId : ApiKeyId}

theorem keyDead_of_run (hscope : ∀ call, scope.admits call → call.Served)
    (hrespected : (identityDiscipline scope since).Respected config)
    (hrun : Run (identitySystem scope).Step config labels final)
    (hdead : config.store.db.KeyDead accountId keyId) :
    final.store.db.KeyDead accountId keyId := by
  have hall := Run.preserves
    (fun state => (identityDiscipline scope since).Respected state ∧
      state.store.db.KeyDead accountId keyId) ⟨hrespected, hdead⟩ ?_ hrun
  · exact hall.2
  · intro before label after hbefore hstep
    refine ⟨respected_of_sound hscope hbefore.1 (run_singleton.mpr hstep), ?_⟩
    cases databaseStep hbefore.1 hstep with
    | unchanged hdb hminted hclock =>
        rw [hdb]
        exact hbefore.2
    | flipped accountId status hflips hafter =>
        rw [hafter]
        exact hbefore.2
    | answered pid call reply hallows hanswers hafter => exact hbefore.2.answers hanswers

/-- No live key is read once the key is dead. -/
theorem not_keyRead_of_run (hscope : ∀ call, scope.admits call → call.Served)
    (hpast : Run (identitySystem scope).Step (.idle (.initial db clock)) past config)
    (hrest : Run (identitySystem scope).Step config rest final)
    (hdead : config.store.db.KeyDead accountId keyId) {pid : ℕ} {call : AuthCall}
    (hstart : .start pid call ∈ rest) :
    ¬ KeyRead (answersOf pid (past ++ rest)) accountId keyId := by
  intro hread
  obtain ⟨key, now, hlive, hmem⟩ := hread
  have hlabel := mem_answersOf.mp hmem
  rw [List.mem_append] at hlabel
  have hlater := hlabel.resolve_left (System.ask_not_mem_of_start hpast hrest hstart)
  obtain ⟨first, second, before, asking, next, after, _, hfirst, _, hserves, _⟩ :=
    System.exists_of_ask hrest hlater
  have hstill := keyDead_of_run hscope (respected_of_initial hscope hpast) hfirst hdead
  obtain ⟨_, hserved, _⟩ := hserves
  have hfound : before.store.db.apiKey accountId keyId = some key := by
    cases hserved with
    | inl hanswers => exact (Except.ok.inj hanswers.1).symm
    | inr hfailed =>
        obtain ⟨message, hreply⟩ := hfailed.1
        cases hreply
  unfold ApiKey.live at hlive
  simp only [Bool.and_eq_true, Option.isNone_iff_eq_none] at hlive
  exact hstill key hfound hlive.1

/-- Once a key is dead nothing that starts later succeeds with it, nor with a
session minted from it. -/
theorem refused_of_keyDead (hscope : ∀ call, scope.admits call → call.Served)
    (hpast : Run (identitySystem scope).Step (.idle (.initial db clock)) past config)
    (hrest : Run (identitySystem scope).Step config rest final)
    (hdead : config.store.db.KeyDead accountId keyId) {pid : ℕ} {call : AuthCall}
    {value : call.Result} (hstart : .start pid call ∈ rest)
    (hdone : final.process pid = some ⟨call, .done value⟩) :
    (∀ token secret, call.keyToken? = some token →
      scope.config.parseApiKeyToken token ≠ some (accountId, keyId, secret)) ∧
    ∀ token sessionId secret, call = .authenticateAstrometrySession token →
      scope.config.parseSessionToken token = some (accountId, sessionId, secret) →
        ∀ first ∈ final.store.minted, first.id = sessionId → first.apiKeyId ≠ some keyId := by
  have hrun : Run (identitySystem scope).Step (.idle (.initial db clock)) (past ++ rest) final :=
    run_append.mpr ⟨config, hpast, hrest⟩
  have hunread := not_keyRead_of_run hscope hpast hrest hdead hstart
  have hreplays : (call.program scope.config).Replays (answersOf pid (past ++ rest))
      (.done value) := by
    cases System.replays_of_run hrun hdone with
    | inl hfault =>
        obtain ⟨cause, hfault⟩ := hfault
        cases hfault
    | inr hreplays => exact hreplays
  constructor
  · intro token secret htoken hparsed
    obtain ⟨account, key, other, hsame, hread⟩ := replays_key htoken hreplays
    rw [hparsed, Option.some.injEq] at hsame
    cases hsame
    exact hunread hread
  · intro token sessionId secret hcall hparsed first hfirst hid hminted
    subst hcall
    obtain ⟨account, id, now, session, hasked, hkeys⟩ := replays_astrometry hreplays
    obtain ⟨other, hsame, _⟩ := hasked.parsed
    rw [hparsed, Option.some.injEq] at hsame
    cases hsame
    apply hunread
    apply hkeys
    -- The session that was read is the one that was minted.
    obtain ⟨answers, hanswered⟩ := hasked.asked
    have hmem : .ask pid (.repository (.session accountId sessionId)) (.ok (some session)) ∈
        past ++ rest := by
      apply mem_answersOf.mp
      rw [hanswered]
      exact List.mem_cons_of_mem _ List.mem_cons_self
    obtain ⟨front, back, before, asking, next, after, _, hfront, hprocess, hserves, hback⟩ :=
      System.exists_of_ask hrun hmem
    have hbefore := respected_of_initial hscope hfront
    have hbackRun := run_cons.mpr ⟨_, .ask pid asking _ next _ after hprocess hserves, hback⟩
    have hfind := (Option.filter_eq_some_iff.mp (session_of_ask
      (.ask pid asking _ next _ after hprocess hserves))).1
    obtain ⟨minted, hmintedMem, hcontinues⟩ :=
      hbefore.1.history session (KeyedTable.mem_of_find? hfind)
    have hsame : minted = first := by
      apply (respected_of_initial hscope hrun).1.minted_unique
        (grows_of_run hscope hbefore hbackRun hmintedMem) hfirst
      rw [hid, ← KeyedTable.key_of_find? hfind, hcontinues]
    rw [hcontinues, hsame]
    exact hminted

end Runs

end SeizaServer
