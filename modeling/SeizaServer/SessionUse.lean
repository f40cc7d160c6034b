import SeizaServer.IdentitySystem

/-!
# How a session is used

What the authentications have asked by the time they return or touch their
session, and that no other call touches one.
-/

namespace SeizaServer

open Interaction

/-- The token of a call that authenticates a session. -/
def AuthCall.sessionToken? : AuthCall → Option String
  | .authenticateBrowserSession token _ => some token
  | .authenticateAstrometrySession token => some token
  | _ => none

/-- Any request but a touch. -/
def NotTouch : AuthRequest → Prop
  | .repository (.touchSession ..) => False
  | _ => True

theorem notTouch_of_plain (r : AuthRequest) (hplain : r.Plain) : NotTouch r := by
  cases r with
  | repository call =>
      cases call with
      | touchSession accountId sessionId lastSeenAt expiresAt => exact hplain
      | _ => trivial
  | _ => trivial

theorem issues_newBrowserSession (authConfig : AuthConfig) (accountId : AccountId) (now : Time) :
    (authConfig.newBrowserSession accountId now).Issues NotTouch := by
  apply (issues_randomSecret.mono notTouch_of_plain).bind
  intro sessionSecret
  apply (issues_randomSecret.mono notTouch_of_plain).bind
  intro csrfToken
  exact ⟨trivial, fun _ => trivial⟩

theorem issues_notTouch_completion {α : Type} (completed : Option α) {β : Type} (make : α → β) :
    (Auth.orInvalid completed >>= fun completion =>
      (Program.done (make completion) : AuthProgram β)).Issues NotTouch :=
  (issues_completion completed make).mono notTouch_of_plain

/-- Only authentications touch. -/
theorem issues_notTouch {authConfig : AuthConfig} {call : AuthCall} (hserved : call.Served)
    (htoken : call.sessionToken? = none) : (call.program authConfig).Issues NotTouch := by
  cases call with
  | startEmail email source => exact (issues_startEmail _ _ _).mono notTouch_of_plain
  | completeEmail credential =>
      refine ⟨trivial, fun now => ?_⟩
      apply (issues_orInvalid _).bind
      intro parsed
      apply (issues_repository (by exact trivial)).bind
      intro found
      apply (issues_orInvalid _).bind
      intro challenge
      split_ifs
      · trivial
      · apply (issues_orInvalid _).bind
        intro emailLookup
        split_ifs
        · refine ⟨trivial, fun accountId => ?_⟩
          apply (issues_newBrowserSession authConfig accountId now).bind
          intro made
          apply (issues_repository (by exact trivial)).bind
          intro completed
          exact issues_notTouch_completion completed _
        · apply (issues_repository (by exact trivial)).bind
          intro _
          trivial
  | completePasskeyAuthentication challengeId assertion =>
      refine ⟨trivial, fun now => ?_⟩
      apply (issues_repository (by exact trivial)).bind
      intro found
      apply (issues_orInvalid _).bind
      intro challenge
      apply (issues_orInvalid _).bind
      intro state
      apply (issues_orInvalid _).bind
      intro identified
      apply (issues_repository (by exact trivial)).bind
      intro stored
      apply (issues_orInvalid _).bind
      intro persisted
      split
      · trivial
      · refine ⟨trivial, fun now => ?_⟩
        apply (issues_newBrowserSession authConfig _ now).bind
        intro made
        apply (issues_repository (by exact trivial)).bind
        intro completed
        exact issues_notTouch_completion completed _
  | authenticateBrowserSession token csrfCookie => cases htoken
  | logout authenticated =>
      refine ⟨trivial, fun now => ?_⟩
      exact (issues_repository (by exact trivial)).bind fun _ => trivial
  | logoutAll authenticated =>
      exact ⟨trivial, fun now => issues_repository (by exact trivial)⟩
  | authenticateApiKey token requiredScope =>
      exact (issues_authenticateApiKey _ _ _).mono notTouch_of_plain
  | createAstrometrySession apiKeyToken =>
      apply ((issues_authenticateApiKey _ _ _).mono notTouch_of_plain).bind
      intro authenticated
      refine ⟨trivial, fun now => ?_⟩
      apply ((issues_recycle _ _).mono notTouch_of_plain).bind
      intro _
      apply (issues_randomSecret.mono notTouch_of_plain).bind
      intro secret
      refine ⟨trivial, fun sessionId => ?_⟩
      exact (issues_repository (by exact trivial)).bind fun _ => trivial
  | authenticateAstrometrySession token => cases htoken
  | purgeExpired => exact ⟨trivial, fun now => issues_repository (by exact trivial)⟩
  | repository call =>
      exact (issues_repository (plain_of_outside hserved)).mono notTouch_of_plain

/-- Any request but a touch of another session or with another reading. -/
def TouchOf (accountId : AccountId) (sessionId : SessionId) (now : Time) : AuthRequest → Prop
  | .repository (.touchSession account session lastSeenAt _) =>
      account = accountId ∧ session = sessionId ∧ lastSeenAt = now
  | _ => True

section TouchOf

variable {accountId : AccountId} {sessionId : SessionId} {now : Time}

theorem touchOf_of_notTouch (r : AuthRequest) (hnot : NotTouch r) :
    TouchOf accountId sessionId now r := by
  cases r with
  | repository call =>
      cases call with
      | touchSession account session lastSeenAt expiresAt => exact hnot.elim
      | _ => trivial
  | _ => trivial

theorem touchOf_of_plain (r : AuthRequest) (hplain : r.Plain) :
    TouchOf accountId sessionId now r :=
  touchOf_of_notTouch r (notTouch_of_plain r hplain)

theorem issues_touch (session : AuthSession) :
    (touch session accountId sessionId now).Issues (TouchOf accountId sessionId now) := by
  unfold touch
  split_ifs
  · exact ⟨⟨rfl, rfl, rfl⟩, fun reply => (issues_internal reply).bind fun _ => trivial⟩
  · trivial

end TouchOf

/-! ## The two authentications -/

namespace AuthConfig

variable (config : AuthConfig)

/-- The checks of a session before the account is looked at. -/
def accepts (kind : SessionKind) (now : Time) (secret : String) (session : AuthSession) : Bool :=
  session.kind = kind && session.live now && session.tokenDigest = config.secretDigest secret

/-- What both authentications do up to these checks. -/
def authenticateParsed {α : Type} (kind : SessionKind)
    (finish : AccountId → SessionId → Time → AuthSession → AuthProgram α)
    (parsed : AccountId × SessionId × String) : AuthProgram α :=
  Auth.utcNow >>= fun now =>
    Auth.repository (.session parsed.1 parsed.2.1) >>= fun found =>
      Auth.orInvalid (found.filter (config.accepts kind now parsed.2.2)) >>= fun session =>
        finish parsed.1 parsed.2.1 now session

def finishBrowser (csrfCookie : Option String) (accountId : AccountId) (sessionId : SessionId)
    (now : Time) (session : AuthSession) : AuthProgram AuthenticatedBrowserSession :=
  activeAccount accountId >>= fun account =>
    touch session accountId sessionId now >>= fun session =>
      pure ⟨account, session, csrfCookie.filter fun cookie =>
        session.csrfDigest.any fun digest => digest = config.secretDigest cookie⟩

def finishAstrometry (accountId : AccountId) (sessionId : SessionId) (now : Time)
    (session : AuthSession) : AuthProgram AuthenticatedAstrometrySession :=
  activeAccount accountId >>= fun account =>
    mintingKeyWeight session accountId now >>= fun queueWeight =>
      touch session accountId sessionId now >>= fun session =>
        pure ⟨account, session, queueWeight⟩

theorem authenticateBrowserSession_eq (token : String) (csrfCookie : Option String) :
    config.authenticateBrowserSession token csrfCookie =
      Auth.orInvalid (config.parseSessionToken token) >>=
        config.authenticateParsed .browser (config.finishBrowser csrfCookie) := rfl

theorem authenticateAstrometrySession_eq (token : String) :
    config.authenticateAstrometrySession token =
      Auth.orInvalid (config.parseSessionToken token) >>=
        config.authenticateParsed .astrometry finishAstrometry := rfl

end AuthConfig

theorem issues_finishBrowser (authConfig : AuthConfig) (csrfCookie : Option String)
    (accountId : AccountId) (sessionId : SessionId) (now : Time) (session : AuthSession) :
    (authConfig.finishBrowser csrfCookie accountId sessionId now session).Issues
      (TouchOf accountId sessionId now) := by
  apply ((issues_activeAccount _).mono touchOf_of_plain).bind
  intro account
  exact (issues_touch session).bind fun _ => trivial

theorem issues_finishAstrometry (accountId : AccountId) (sessionId : SessionId) (now : Time)
    (session : AuthSession) :
    (AuthConfig.finishAstrometry accountId sessionId now session).Issues
      (TouchOf accountId sessionId now) := by
  apply ((issues_activeAccount _).mono touchOf_of_plain).bind
  intro account
  apply ((issues_mintingKeyWeight _ _ _).mono touchOf_of_plain).bind
  intro queueWeight
  exact (issues_touch session).bind fun _ => trivial

/-- A program that has returned or is about to touch a session. -/
def Late {α : Type} : AuthProgram α → Prop
  | .done _ => True
  | .request (.repository (.touchSession ..)) _ => True
  | _ => False

/-- What an authentication has asked by the time it returns or touches. -/
structure Asked (authConfig : AuthConfig) (token : String)
    (answers : List ((r : AuthRequest) × r.Response)) (accountId : AccountId)
    (sessionId : SessionId) (now : Time) (session : AuthSession) : Prop where
  parsed : ∃ secret, authConfig.parseSessionToken token = some (accountId, sessionId, secret) ∧
    session.tokenDigest = authConfig.secretDigest secret
  live : session.live now = true
  asked : ∃ rest, answers = ⟨.utcNow, now⟩ ::
    ⟨.repository (.session accountId sessionId), .ok (some session)⟩ :: rest

theorem replays_authenticateParsed {authConfig : AuthConfig} {α : Type} {kind : SessionKind}
    {finish : AccountId → SessionId → Time → AuthSession → AuthProgram α} {token : String}
    {answers : List ((r : AuthRequest) × r.Response)} {final : AuthProgram α} (hlate : Late final)
    (hreplays : (Auth.orInvalid (authConfig.parseSessionToken token) >>=
      authConfig.authenticateParsed kind finish).Replays answers final) :
    ∃ accountId sessionId now session rest,
      Asked authConfig token answers accountId sessionId now session ∧ session.kind = kind ∧
        (finish accountId sessionId now session).Replays rest final ∧ ∀ answer ∈ rest,
          answer ∈ answers := by
  cases hparsed : authConfig.parseSessionToken token with
  | none =>
      rw [hparsed] at hreplays
      rw [Program.Replays.eq_of_fault hreplays] at hlate
      exact hlate.elim
  | some parsed =>
      obtain ⟨accountId, sessionId, secret⟩ := parsed
      rw [hparsed] at hreplays
      obtain ⟨now, afterNow, hnow, hreplays⟩ := Program.Replays.of_request_ne hreplays (by
        intro hsame
        rw [← hsame] at hlate
        exact hlate)
      obtain ⟨reply, afterRead, hread, hreplays⟩ := Program.Replays.of_request_ne hreplays (by
        intro hsame
        rw [← hsame] at hlate
        exact hlate)
      cases reply with
      | error cause =>
          rw [Program.Replays.eq_of_fault hreplays] at hlate
          exact hlate.elim
      | ok found =>
          cases hfound : found.filter (authConfig.accepts kind now secret) with
          | none =>
              change (Auth.orInvalid (found.filter _) >>= _).Replays _ _ at hreplays
              rw [hfound] at hreplays
              rw [Program.Replays.eq_of_fault hreplays] at hlate
              exact hlate.elim
          | some session =>
              change (Auth.orInvalid (found.filter _) >>= _).Replays _ _ at hreplays
              rw [hfound] at hreplays
              obtain ⟨hsome, hvalid⟩ := Option.filter_eq_some_iff.mp hfound
              unfold AuthConfig.accepts at hvalid
              simp only [Bool.and_eq_true, decide_eq_true_eq] at hvalid
              refine ⟨accountId, sessionId, now, session, afterRead, ⟨?_, hvalid.1.2, ?_⟩,
                hvalid.1.1, hreplays, ?_⟩
              · exact ⟨secret, hparsed, hvalid.2⟩
              · exact ⟨afterRead, by rw [hnow, hread, hsome]⟩
              · intro answer hmem
                rw [hnow, hread]
                exact List.mem_cons_of_mem _ (List.mem_cons_of_mem _ hmem)

/-- What a successful authentication has asked. -/
theorem replays_authenticate {authConfig : AuthConfig} {call : AuthCall} {token : String}
    (htoken : call.sessionToken? = some token)
    {answers : List ((r : AuthRequest) × r.Response)} {value : call.Result}
    (hreplays : (call.program authConfig).Replays answers (.done value)) :
    ∃ accountId sessionId now session,
      Asked authConfig token answers accountId sessionId now session := by
  cases call with
  | authenticateBrowserSession other csrfCookie =>
      cases htoken
      change (authConfig.authenticateBrowserSession token csrfCookie).Replays _ _ at hreplays
      rw [AuthConfig.authenticateBrowserSession_eq] at hreplays
      obtain ⟨accountId, sessionId, now, session, _, hasked, _⟩ :=
        replays_authenticateParsed (by exact trivial) hreplays
      exact ⟨accountId, sessionId, now, session, hasked⟩
  | authenticateAstrometrySession other =>
      cases htoken
      change (authConfig.authenticateAstrometrySession token).Replays _ _ at hreplays
      rw [AuthConfig.authenticateAstrometrySession_eq] at hreplays
      obtain ⟨accountId, sessionId, now, session, _, hasked, _⟩ :=
        replays_authenticateParsed (by exact trivial) hreplays
      exact ⟨accountId, sessionId, now, session, hasked⟩
  | _ => cases htoken

/-- A touch comes from a process that authenticates the session, with its
reading of the clock. -/
theorem replays_touch {authConfig : AuthConfig} {call : AuthCall} (hserved : call.Served)
    {answers : List ((r : AuthRequest) × r.Response)} {accountId : AccountId}
    {sessionId : SessionId} {lastSeenAt expiresAt : Time}
    {next : Except Fault Bool → AuthProgram call.Result}
    (hreplays : (call.program authConfig).Replays answers
      (.request (.repository (.touchSession accountId sessionId lastSeenAt expiresAt)) next)) :
    ∃ token session, call.sessionToken? = some token ∧
      Asked authConfig token answers accountId sessionId lastSeenAt session := by
  cases htoken : call.sessionToken? with
  | none => exact (hreplays.issues (issues_notTouch hserved htoken)).elim
  | some token =>
      have hshape : ∀ {α : Type} {kind : SessionKind}
          {finish : AccountId → SessionId → Time → AuthSession → AuthProgram α}
          {next : Except Fault Bool → AuthProgram α},
          (∀ accountId sessionId now session,
            (finish accountId sessionId now session).Issues (TouchOf accountId sessionId now)) →
          (Auth.orInvalid (authConfig.parseSessionToken token) >>=
            authConfig.authenticateParsed kind finish).Replays answers
              (.request (.repository (.touchSession accountId sessionId lastSeenAt expiresAt)) next) →
          ∃ session, Asked authConfig token answers accountId sessionId lastSeenAt session := by
        intro α kind finish next hfinish hreplays
        obtain ⟨account, id, now, session, rest, hasked, _, hrest, _⟩ :=
          replays_authenticateParsed (by exact trivial) hreplays
        obtain ⟨haccount, hid, hreading⟩ := Program.Replays.issues hrest (hfinish _ _ _ _)
        rw [haccount, hid, hreading]
        exact ⟨session, hasked⟩
      have hfound : ∃ session,
          Asked authConfig token answers accountId sessionId lastSeenAt session := by
        cases call with
        | authenticateBrowserSession other csrfCookie =>
            cases htoken
            exact hshape (issues_finishBrowser authConfig csrfCookie) hreplays
        | authenticateAstrometrySession other =>
            cases htoken
            exact hshape issues_finishAstrometry hreplays
        | _ => cases htoken
      obtain ⟨session, hasked⟩ := hfound
      exact ⟨token, session, rfl, hasked⟩

end SeizaServer
