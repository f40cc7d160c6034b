import SeizaServer.ClientIdentity
import SeizaServer.RateLimiter

/-!
# Admission of anonymous solves

The identity under which a request without credentials is charged is what its
own headers say.  A peer whose headers name one client is limited, and only
such a peer.
-/

namespace SeizaServer

open TokenBucket

/-! ## The identity of an anonymous request -/

namespace SolveAdmission

def HeaderMap.get (headers : HeaderMap) (name : String) : Option HeaderValue :=
  (headers.getAll name).head?

inductive PublicSolveSurface where
  | ui
  | api
  deriving DecidableEq

structure Config where
  rateLimitPerMinute : ℚ
  rateLimitBurst : ℚ
  trustedProxyHops : ℕ
  publicUiSolves : Bool
  publicApiSolves : Bool
  /-- `from_env` refuses other limits. -/
  rate_pos : 0 < rateLimitPerMinute
  one_le_burst : 1 ≤ rateLimitBurst

structure Client where
  id : String
  queueWeight : ℚ

def ensurePublicSolveAllowed (config : Config) (surface : PublicSolveSurface) :
    Except String Unit :=
  let (allowed, setting, label) :=
    match surface with
    | .ui => (config.publicUiSolves, "SEIZA_PUBLIC_UI_SOLVES", "browser UI")
    | .api => (config.publicApiSolves, "SEIZA_PUBLIC_API_SOLVES", "API")
  if allowed then .ok ()
  else .error ("public " ++ label ++ " solves are disabled by " ++ setting)

def publicClient (headers : HeaderMap) : Client :=
  let sourceIp := ((((HeaderMap.get headers "x-forwarded-for").or
    (HeaderMap.get headers "x-real-ip")).bind HeaderValue.toStr).bind
      fun text => (text.splitOn ',').head?).getD "anonymous".toList
  ⟨publicClientId sourceIp, 1⟩

def publicClientForRequest (config : Config) (headers : HeaderMap)
    (surface : Option PublicSolveSurface) : Except String Client := do
  match surface with
  | some surface => ensurePublicSolveAllowed config surface
  | none => pure ()
  return publicClient headers

/-! ### The client the headers name -/

/-- The address in the first element of a line. -/
def firstAddress (line : HeaderValue) : Option IpAddr :=
  (line.toStr.bind fun text => (text.splitOn ',').head?).bind fun text => IpAddr.parse (trim text)

/-- The address in the first line of `X-Forwarded-For`, or of `X-Real-IP` if
there is no such line. -/
def namedAddress (headers : HeaderMap) : Option IpAddr :=
  match headers.getAll "x-forwarded-for", headers.getAll "x-real-ip" with
  | line :: _, _ => firstAddress line
  | [], line :: _ => firstAddress line
  | [], [] => none

/-- The same IPv4 address, IPv6 addresses of the same /64, or no address. -/
def NameOneClient : Option IpAddr → Option IpAddr → Prop
  | none, none => True
  | some (.v4 first), some (.v4 second) => first = second
  | some (.v6 first), some (.v6 second) => IpAddr.network first = IpAddr.network second
  | _, _ => False

/-- The source of an anonymous request as text. -/
def sourceText (headers : HeaderMap) : List Char :=
  ((((HeaderMap.get headers "x-forwarded-for").or
    (HeaderMap.get headers "x-real-ip")).bind HeaderValue.toStr).bind
      fun text => (text.splitOn ',').head?).getD "anonymous".toList

theorem parse_sourceText (headers : HeaderMap) :
    IpAddr.parse (trim (sourceText headers)) = namedAddress headers := by
  have hanonymous : IpAddr.parse (trim "anonymous".toList) = none := by decide
  have hline : ∀ line : HeaderValue,
      IpAddr.parse (trim ((line.toStr.bind fun text => (text.splitOn ',').head?).getD
        "anonymous".toList)) = firstAddress line := by
    intro line
    unfold firstAddress
    cases line.toStr.bind fun text => (text.splitOn ',').head? with
    | none => exact hanonymous
    | some text => rfl
  unfold sourceText namedAddress HeaderMap.get
  cases headers.getAll "x-forwarded-for" with
  | cons line rest => exact hline line
  | nil =>
      cases headers.getAll "x-real-ip" with
      | cons line rest => exact hline line
      | nil => exact hanonymous

theorem rateLimitSource_ne_anonymous (address : IpAddr) :
    rateLimitSource address ≠ "anonymous" := by
  intro hsame
  have htext := congrArg String.toList hsame
  have haddress : ∃ other : IpAddr, bucketText address = other.toText := by
    cases address with
    | v4 address => exact ⟨.v4 address, rfl⟩
    | v6 address => exact ⟨.v6 _, rfl⟩
  obtain ⟨other, hother⟩ := haddress
  rw [rateLimitSource_eq, String.toList_ofList, hother] at htext
  have hall := other.isAddressText.all 'n' (by rw [htext]; decide)
  exact absurd hall (by decide)

/-- Two requests are charged to one identity exactly if their headers name one
client. -/
theorem publicClientId_eq_iff (first second : List Char) :
    publicClientId first = publicClientId second ↔
      NameOneClient (IpAddr.parse (trim first)) (IpAddr.parse (trim second)) := by
  have hother : ∀ {text other : List Char} {address : IpAddr},
      IpAddr.parse (trim text) = some address → IpAddr.parse (trim other) = none →
        publicClientId text ≠ publicClientId other := by
    intro text other address haddress hnone hsame
    rw [publicClientId_eq haddress, publicClientId, hnone] at hsame
    have hlists := congrArg String.toList hsame
    rw [String.toList_append,
      show "public:anonymous" = "public:" ++ "anonymous" by decide, String.toList_append] at hlists
    exact rateLimitSource_ne_anonymous address
      (String.toList_injective (List.append_cancel_left hlists))
  cases hfirst : IpAddr.parse (trim first) with
  | none =>
      cases hsecond : IpAddr.parse (trim second) with
      | none => simp [publicClientId, hfirst, hsecond, NameOneClient]
      | some address => simp [NameOneClient, (hother hsecond hfirst).symm]
  | some address =>
      cases hsecond : IpAddr.parse (trim second) with
      | none => simp [NameOneClient, hother hfirst hsecond]
      | some other =>
          rw [publicClientId_inj hfirst hsecond]
          cases address <;> cases other <;> simp [NameOneClient, bucketOf]

theorem publicClient_id_eq_iff (first second : HeaderMap) :
    (publicClient first).id = (publicClient second).id ↔
      NameOneClient (namedAddress first) (namedAddress second) := by
  rw [← parse_sourceText, ← parse_sourceText]
  exact publicClientId_eq_iff (sourceText first) (sourceText second)

/-! ## Submissions -/

/-- A solve or an upload up to the limiter: one without credentials, or one of
an identity that has them. -/
inductive Submission where
  | anonymous (peer : IpAddr) (headers : HeaderMap) (surface : PublicSolveSurface) (time : ℚ)
  | credentialed (identity : String) (time : ℚ)

def Submission.time : Submission → ℚ
  | .anonymous _ _ _ time => time
  | .credentialed _ time => time

def Submission.identity (config : Config) : Submission → Option String
  | .anonymous _ headers surface _ =>
      (publicClientForRequest config headers (some surface)).toOption.map Client.id
  | .credentialed identity _ => some identity

/-- An anonymous submission of a peer. -/
def Submission.IsFrom (peer : IpAddr) : Submission → Bool
  | .anonymous source _ _ _ => source = peer
  | .credentialed _ _ => false

/-- The peer sends these headers only. -/
def Submission.Carries (sent : HeaderMap → Prop) (peer : IpAddr) : Submission → Prop
  | .anonymous source headers _ _ => source = peer → sent headers
  | .credentialed _ _ => True

def Config.limiter (config : Config) : RateLimiter :=
  .new config.rateLimitPerMinute config.rateLimitBurst

/-- The decisions of a server since its start. -/
def admissions (config : Config) (submissions : List Submission) : List (Submission × Bool) :=
  config.limiter.decisions (Submission.identity config) Submission.time .empty submissions

/-- What the limiter accepted from a peer in a closed window. -/
def acceptedFrom (config : Config) (peer : IpAddr) (start finish : ℚ)
    (submissions : List Submission) : List (Submission × Bool) :=
  within (fun decided : Submission × Bool => decided.1.time) Prod.snd start finish
    ((admissions config submissions).filter fun decided => decided.1.IsFrom peer)

/-- The limit for a peer which is not behind proxies, over every run. -/
def PeerLimited (peer : IpAddr) (sent : HeaderMap → Prop) : Prop :=
  ∀ config : Config, config.trustedProxyHops = 0 →
    ∀ began submissions, RateLimiter.InOrder Submission.time began submissions →
      (∀ submission ∈ submissions, submission.Carries sent peer) →
        ∀ start finish, start ≤ finish →
          ((acceptedFrom config peer start finish submissions).length : ℚ) ≤
            config.rateLimitBurst + (finish - start) * config.rateLimitPerMinute / 60

/-! ### Who is charged -/

theorem identity_of_isFrom {config : Config} {peer : IpAddr} {sent : HeaderMap → Prop}
    {submission : Submission} {id : String} (hfrom : submission.IsFrom peer = true)
    (hcarries : submission.Carries sent peer)
    (hidentity : submission.identity config = some id) :
    ∃ headers, sent headers ∧ id = (publicClient headers).id := by
  cases submission with
  | credentialed identity time => cases hfrom
  | anonymous source headers surface time =>
      refine ⟨headers, hcarries (of_decide_eq_true hfrom), ?_⟩
      unfold Submission.identity publicClientForRequest at hidentity
      cases hallowed : ensurePublicSolveAllowed config surface with
      | error message =>
          simp only [hallowed] at hidentity
          cases hidentity
      | ok _ =>
          simp only [hallowed] at hidentity
          cases hidentity
          rfl

theorem mem_decisions {limiter : RateLimiter} {identity : Submission → Option String}
    {buckets : RateBuckets} {submissions : List Submission} {decided : Submission × Bool}
    (hmem : decided ∈ limiter.decisions identity Submission.time buckets submissions) :
    decided.1 ∈ submissions ∧ (decided.2 = true → (identity decided.1).isSome) := by
  induction submissions generalizing buckets with
  | nil => cases hmem
  | cons submission rest ih =>
      unfold RateLimiter.decisions at hmem
      cases hidentity : identity submission with
      | none =>
          simp only [hidentity, List.mem_cons] at hmem
          cases hmem with
          | inl hfirst =>
              rw [hfirst]
              refine ⟨List.mem_cons_self, ?_⟩
              intro htrue
              cases htrue
          | inr hlater => exact ⟨List.mem_cons_of_mem _ (ih hlater).1, (ih hlater).2⟩
      | some id =>
          simp only [hidentity, List.mem_cons] at hmem
          cases hmem with
          | inl hfirst =>
              rw [hfirst]
              refine ⟨List.mem_cons_self, fun _ => ?_⟩
              rw [hidentity]
              rfl
          | inr hlater => exact ⟨List.mem_cons_of_mem _ (ih hlater).1, (ih hlater).2⟩

/-- Where a peer has one identity, its accepted submissions are among those of
that identity. -/
theorem length_acceptedFrom_le {config : Config} {peer : IpAddr} {sent : HeaderMap → Prop}
    {key : String} {submissions : List Submission} {start finish : ℚ}
    (hcarries : ∀ submission ∈ submissions, submission.Carries sent peer)
    (hkey : ∀ headers, sent headers → (publicClient headers).id = key) :
    (acceptedFrom config peer start finish submissions).length ≤
      (within (fun decided : Submission × Bool => decided.1.time) Prod.snd start finish
        ((admissions config submissions).filter
          fun decided => decided.1.identity config = some key)).length := by
  unfold acceptedFrom within
  rw [List.filter_filter, List.filter_filter, ← List.countP_eq_length_filter,
    ← List.countP_eq_length_filter]
  apply List.countP_mono_left
  intro decided hmem hboth
  rw [Bool.and_eq_true] at hboth ⊢
  refine ⟨hboth.1, ?_⟩
  obtain ⟨hin, hsome⟩ := mem_decisions hmem
  rw [Bool.and_eq_true] at hboth
  obtain ⟨id, hid⟩ := Option.isSome_iff_exists.mp (hsome hboth.1.1)
  obtain ⟨headers, hsent, hclient⟩ :=
    identity_of_isFrom hboth.2 (hcarries decided.1 hin) hid
  rw [decide_eq_true_eq, hid, hclient, hkey headers hsent]

/-- A peer of one identity is limited. -/
theorem peerLimited_of_one_identity {peer : IpAddr} {sent : HeaderMap → Prop} {key : String}
    (hkey : ∀ headers, sent headers → (publicClient headers).id = key) : PeerLimited peer sent := by
  intro config _ began submissions horder hcarries start finish hwindow
  have hcapacity : 0 ≤ config.limiter.capacity := zero_le_one.trans config.one_le_burst
  have hrefill : 0 ≤ config.limiter.refillPerSecond :=
    div_nonneg config.rate_pos.le (by norm_num)
  have hpays := @RateLimiter.pays_decisions config.limiter .empty began _
    (Submission.identity config) Submission.time key hcapacity hrefill submissions
    RateLimiter.sound_empty horder
  have hwithin := hpays.length_window_le hrefill hcapacity hwindow
  have hfrom := @length_acceptedFrom_le config peer sent key submissions start finish hcarries hkey
  calc
    ((acceptedFrom config peer start finish submissions).length : ℚ) ≤
        ((within (fun decided : Submission × Bool => decided.1.time) Prod.snd start finish
          ((admissions config submissions).filter
            fun decided => decided.1.identity config = some key)).length : ℚ) := by
      exact_mod_cast hfrom
    _ ≤ config.rateLimitBurst + (finish - start) * (config.rateLimitPerMinute / 60) := hwithin
    _ = config.rateLimitBurst + (finish - start) * config.rateLimitPerMinute / 60 := by ring

/-! ### A second identity -/

/-- One submission a second, one at a time. -/
def strictConfig : Config where
  rateLimitPerMinute := 60
  rateLimitBurst := 1
  trustedProxyHops := 0
  publicUiSolves := true
  publicApiSolves := true
  rate_pos := by norm_num
  one_le_burst := le_rfl

theorem identity_strictConfig (peer : IpAddr) (headers : HeaderMap) :
    (Submission.anonymous peer headers .api 0).identity strictConfig =
      some (publicClient headers).id := rfl

/-- Both of two submissions of one instant are accepted if their headers name
two clients. -/
theorem acceptedFrom_two (peer : IpAddr) {first second : HeaderMap}
    (hne : (publicClient first).id ≠ (publicClient second).id) :
    (acceptedFrom strictConfig peer 0 0
      [.anonymous peer first .api 0, .anonymous peer second .api 0]).length = 2 := by
  let firstId := (publicClient first).id
  let secondId := (publicClient second).id
  let limiter := strictConfig.limiter
  have hfirst : (limiter.check .empty firstId 0).1.isOk = true := by
    rw [RateLimiter.check_eq, if_pos (by exact le_rfl)]
    rfl
  have hlevel : limiter.level (limiter.check .empty firstId 0).2 secondId 0 = 1 := by
    rw [RateLimiter.level_check, if_neg hne]
    rfl
  have hsecond :
      (limiter.check (limiter.check .empty firstId 0).2 secondId 0).1.isOk = true := by
    rw [RateLimiter.check_eq, if_pos (by rw [hlevel])]
    rfl
  have hdecisions : admissions strictConfig
      [.anonymous peer first .api 0, .anonymous peer second .api 0] =
      [(.anonymous peer first .api 0, true), (.anonymous peer second .api 0, true)] := by
    unfold admissions
    simp only [RateLimiter.decisions, identity_strictConfig]
    exact congrArg₂ (fun one two => [(_, one), (_, two)]) hfirst hsecond
  unfold acceptedFrom
  rw [hdecisions]
  simp [within, Submission.IsFrom, Submission.time]

/-- The limit holds for a peer exactly if all headers it sends name one client. -/
theorem solve_admission (peer : IpAddr) (sent : HeaderMap → Prop) :
    PeerLimited peer sent ↔
      ∀ first second, sent first → sent second →
        NameOneClient (namedAddress first) (namedAddress second) := by
  constructor
  · intro hlimited first second hfirst hsecond
    rw [← publicClient_id_eq_iff]
    by_contra hne
    have hcarries : ∀ submission ∈ [Submission.anonymous peer first .api 0,
        .anonymous peer second .api 0], submission.Carries sent peer := by
      intro submission hmem
      simp only [List.mem_cons, List.not_mem_nil, or_false] at hmem
      rcases hmem with heq | heq
      · rw [heq]
        exact fun _ => hfirst
      · rw [heq]
        exact fun _ => hsecond
    have hbound := hlimited strictConfig rfl 0
      [.anonymous peer first .api 0, .anonymous peer second .api 0] ⟨le_rfl, le_rfl, trivial⟩
      hcarries 0 0 le_rfl
    rw [acceptedFrom_two peer hne] at hbound
    have hburst : (2 : ℚ) ≤ 1 := by
      have hzero : strictConfig.rateLimitBurst +
          (0 - 0) * strictConfig.rateLimitPerMinute / 60 = 1 := by norm_num [strictConfig]
      rw [hzero] at hbound
      exact_mod_cast hbound
    norm_num at hburst
  · intro hsame
    by_cases hany : ∃ headers, sent headers
    · obtain ⟨headers, hsent⟩ := hany
      exact peerLimited_of_one_identity fun other hother =>
        (publicClient_id_eq_iff other headers).mpr (hsame other headers hother hsent)
    · -- A peer that sends nothing has any identity.
      exact @peerLimited_of_one_identity peer sent "" fun other hother =>
        absurd ⟨other, hother⟩ hany

/-- Two addresses in `X-Forwarded-For`, from one peer. -/
theorem solve_admission_counterexample :
    ¬ ∀ (peer : IpAddr) (sent : HeaderMap → Prop), PeerLimited peer sent := by
  intro hclaim
  let first : HeaderMap := [("x-forwarded-for", .ofAddress (.v4 0xc0000201#32))]
  let second : HeaderMap := [("x-forwarded-for", .ofAddress (.v4 0xc0000202#32))]
  have hne : (publicClient first).id ≠ (publicClient second).id := by decide
  have hbound := hclaim (.v4 0xc0000207#32) (fun _ => True) strictConfig rfl 0
    [.anonymous (.v4 0xc0000207#32) first .api 0, .anonymous (.v4 0xc0000207#32) second .api 0]
    ⟨le_rfl, le_rfl, trivial⟩
    (by
      intro submission hmem
      cases submission with
      | anonymous source headers surface time => exact fun _ => trivial
      | credentialed identity time => trivial)
    0 0 le_rfl
  rw [acceptedFrom_two _ hne] at hbound
  norm_num [strictConfig] at hbound

end SolveAdmission

end SeizaServer
