import SeizaServer.SessionUse

/-!
# How an API key is used

What the calls that depend on a key have asked by the time they return.
-/

namespace SeizaServer

open Interaction

/-- The token of a call that authenticates an API key. -/
def AuthCall.keyToken? : AuthCall → Option String
  | .authenticateApiKey token _ => some token
  | .createAstrometrySession token => some token
  | _ => none

/-- A live key was read. -/
def KeyRead (answers : List ((r : AuthRequest) × r.Response)) (accountId : AccountId)
    (keyId : ApiKeyId) : Prop :=
  ∃ key now, key.live now = true ∧
    (⟨.repository (.apiKey accountId keyId), .ok (some key)⟩ : (r : AuthRequest) × r.Response) ∈
      answers

theorem KeyRead.mono {answers more : List ((r : AuthRequest) × r.Response)} {accountId : AccountId}
    {keyId : ApiKeyId} (hread : KeyRead answers accountId keyId)
    (hmore : ∀ answer ∈ answers, answer ∈ more) : KeyRead more accountId keyId := by
  obtain ⟨key, now, hlive, hmem⟩ := hread
  exact ⟨key, now, hlive, hmore _ hmem⟩

theorem replays_authenticateApiKey {authConfig : AuthConfig} {token requiredScope : String}
    {answers : List ((r : AuthRequest) × r.Response)} {value : AuthenticatedApiKey}
    (hreplays : (authConfig.authenticateApiKey token requiredScope).Replays answers (.done value)) :
    ∃ accountId keyId secret, authConfig.parseApiKeyToken token = some (accountId, keyId, secret) ∧
      KeyRead answers accountId keyId := by
  unfold AuthConfig.authenticateApiKey at hreplays
  cases hparsed : authConfig.parseApiKeyToken token with
  | none =>
      rw [hparsed] at hreplays
      exact hreplays.of_fault.elim
  | some parsed =>
      obtain ⟨accountId, keyId, secret⟩ := parsed
      rw [hparsed] at hreplays
      obtain ⟨now, afterNow, hnow, hreplays⟩ := Program.Replays.of_request hreplays
      obtain ⟨reply, afterRead, hread, hreplays⟩ := Program.Replays.of_request hreplays
      cases reply with
      | error cause => exact hreplays.of_fault.elim
      | ok found =>
          cases hfound : found.filter fun key => key.live now &&
              key.scopes.contains requiredScope &&
                key.secretDigest = authConfig.secretDigest secret with
          | none =>
              change (Auth.orInvalid (found.filter _) >>= _).Replays _ _ at hreplays
              rw [hfound] at hreplays
              exact hreplays.of_fault.elim
          | some key =>
              obtain ⟨hsome, hvalid⟩ := Option.filter_eq_some_iff.mp hfound
              simp only [Bool.and_eq_true] at hvalid
              refine ⟨accountId, keyId, secret, rfl, key, now, hvalid.1.1, ?_⟩
              rw [hnow, hread, hsome]
              exact List.mem_cons_of_mem _ List.mem_cons_self

/-- Every call with a key's token has read the key while it was live. -/
theorem replays_key {authConfig : AuthConfig} {call : AuthCall} {token : String}
    (htoken : call.keyToken? = some token) {answers : List ((r : AuthRequest) × r.Response)}
    {value : call.Result} (hreplays : (call.program authConfig).Replays answers (.done value)) :
    ∃ accountId keyId secret, authConfig.parseApiKeyToken token = some (accountId, keyId, secret) ∧
      KeyRead answers accountId keyId := by
  cases call with
  | authenticateApiKey other requiredScope =>
      cases htoken
      exact replays_authenticateApiKey hreplays
  | createAstrometrySession other =>
      cases htoken
      obtain ⟨authenticated, first, second, hsplit, hfirst, _⟩ := Program.Replays.of_bind hreplays
      obtain ⟨accountId, keyId, secret, hparsed, hread⟩ := replays_authenticateApiKey hfirst
      refine ⟨accountId, keyId, secret, hparsed, hread.mono ?_⟩
      intro answer hmem
      rw [hsplit]
      exact List.mem_append_left _ hmem
  | _ => cases htoken

theorem replays_mintingKeyWeight {session : AuthSession} {accountId : AccountId} {now : Time}
    {answers : List ((r : AuthRequest) × r.Response)} {weight : ℚ}
    (hreplays : (AuthConfig.mintingKeyWeight session accountId now).Replays answers (.done weight))
    {keyId : ApiKeyId} (hkey : session.apiKeyId = some keyId) :
    KeyRead answers accountId keyId := by
  unfold AuthConfig.mintingKeyWeight at hreplays
  rw [hkey] at hreplays
  obtain ⟨reply, rest, hread, hreplays⟩ := Program.Replays.of_request hreplays
  cases reply with
  | error cause => exact hreplays.of_fault.elim
  | ok found =>
      cases hfound : found.filter fun key => key.live now with
      | none =>
          change (Auth.orInvalid (found.filter _) >>= _).Replays _ _ at hreplays
          rw [hfound] at hreplays
          exact hreplays.of_fault.elim
      | some key =>
          obtain ⟨hsome, hlive⟩ := Option.filter_eq_some_iff.mp hfound
          refine ⟨key, now, hlive, ?_⟩
          rw [hread, hsome]
          exact List.mem_cons_self

/-- A successful authentication of an upload session has read the session, and
the key that minted it while it was live. -/
theorem replays_astrometry {authConfig : AuthConfig} {token : String}
    {answers : List ((r : AuthRequest) × r.Response)} {value : AuthenticatedAstrometrySession}
    (hreplays : (authConfig.authenticateAstrometrySession token).Replays answers (.done value)) :
    ∃ accountId sessionId now session,
      Asked authConfig token answers accountId sessionId now session ∧
        ∀ keyId, session.apiKeyId = some keyId → KeyRead answers accountId keyId := by
  rw [AuthConfig.authenticateAstrometrySession_eq] at hreplays
  obtain ⟨accountId, sessionId, now, session, rest, hasked, _, hrest, hmore⟩ :=
    replays_authenticateParsed (by exact trivial) hreplays
  refine ⟨accountId, sessionId, now, session, hasked, ?_⟩
  intro keyId hkey
  obtain ⟨account, first, second, hsplit, _, hsecond⟩ := Program.Replays.of_bind hrest
  obtain ⟨weight, third, fourth, hother, hthird, _⟩ := Program.Replays.of_bind hsecond
  apply (replays_mintingKeyWeight hthird hkey).mono
  intro answer hmem
  apply hmore
  rw [hsplit, hother]
  exact List.mem_append_right _ (List.mem_append_left _ hmem)

end SeizaServer
