import SeizaServer.AuthService
import SeizaServer.StoreSnapshot

/-!
# Secret tokens

A token is `seiza`, its kind, its identifiers and its secret, separated by
underscores.  Only the secret may have underscores of its own.
-/

namespace SeizaServer.Tokens

/-! ## Splitting -/

section Splitting

variable {separator : Char}

/-- The fields, each with a separator after it, and the rest. -/
def fields (separator : Char) (texts : List (List Char)) (rest : List Char) : List Char :=
  texts.foldr (fun text rest => text ++ separator :: rest) rest

theorem intercalate_eq_fields (texts : List (List Char)) (rest : List Char) :
    [separator].intercalate (texts ++ [rest]) = fields separator texts rest := by
  induction texts with
  | nil => simp [fields, List.intercalate]
  | cons text texts ih =>
      rw [List.cons_append, List.intercalate_cons_of_ne_nil (by simp), ih]
      simp [fields]

theorem splitAtMost_cons {text : List Char} (hplain : separator ∉ text) (count : ℕ)
    (rest : List Char) :
    splitAtMost separator (count + 2) (text ++ separator :: rest) =
      text :: splitAtMost separator (count + 1) rest := by
  rw [splitAtMost, KeyedLists.dropWhile_append_separator hplain,
    KeyedLists.takeWhile_append_separator hplain]

theorem splitAtMost_fields {texts : List (List Char)} (hplain : ∀ text ∈ texts, separator ∉ text)
    (rest : List Char) :
    splitAtMost separator (texts.length + 1) (fields separator texts rest) = texts ++ [rest] := by
  induction texts with
  | nil => rfl
  | cons text texts ih =>
      have hrest := ih fun other hmem => hplain other (List.mem_cons_of_mem _ hmem)
      have hfirst := splitAtMost_cons (hplain text List.mem_cons_self) texts.length
        (fields separator texts rest)
      rw [hrest] at hfirst
      exact hfirst

/-- A split into as many pieces as it may have is of the fields it gives. -/
theorem splitAtMost_eq {count : ℕ} {text last : List Char}
    (hlast : (splitAtMost separator (count + 1) text)[count]? = some last) :
    ∃ texts, texts.length = count ∧ (∀ text ∈ texts, separator ∉ text) ∧
      text = fields separator texts last := by
  induction count generalizing text with
  | zero =>
      cases hlast
      exact ⟨[], rfl, by simp, rfl⟩
  | succ count ih =>
      unfold splitAtMost at hlast
      split at hlast
      next => simp at hlast
      next head rest hdrop =>
        obtain ⟨texts, hlength, hplain, hrest⟩ := ih hlast
        have hfirst := KeyedLists.eq_append_of_dropWhile hdrop
        refine ⟨text.takeWhile (fun c => c ≠ separator) :: texts, ?_, ?_, ?_⟩
        · rw [List.length_cons, hlength]
        · rw [List.forall_mem_cons]
          exact ⟨hfirst.1, hplain⟩
        · calc
            text = text.takeWhile (fun c => c ≠ separator) ++ separator :: rest := hfirst.2
            _ = fields separator (text.takeWhile (fun c => c ≠ separator) :: texts) last := by
              rw [hrest]
              rfl

theorem mapM_eq_some_iff {α β : Type} {f : α → Option β} {values : List α} {results : List β} :
    values.mapM f = some results ↔
      List.Forall₂ (fun value result => f value = some result) values results := by
  induction values generalizing results with
  | nil => simp [eq_comm]
  | cons value values ih =>
      rw [List.mapM_cons]
      simp only [Option.bind_eq_bind, Option.bind_eq_some_iff, Option.pure_def,
        Option.some.injEq, ih]
      constructor
      · rintro ⟨result, hresult, rest, hrest, rfl⟩
        exact .cons hresult hrest
      · intro hresults
        cases hresults with
        | cons hresult hrest => exact ⟨_, hresult, _, hrest, rfl⟩

end Splitting

/-! ## Tokens -/

/-- The token has these identifiers, each in a form that is parsed, and this secret. -/
def Spells (config : AuthConfig) (kind : String) (ids : List Uuid) (secret token : String) : Prop :=
  secret ≠ "" ∧ ∃ texts : List String, (∀ text ∈ texts, '_' ∉ text.toList) ∧
    List.Forall₂ (fun text id => config.parseStr text = some id) texts ids ∧
      token = "_".intercalate (["seiza", kind] ++ texts ++ [secret])

theorem toList_token (kind : String) (texts : List String) (secret : String) :
    ("_".intercalate (["seiza", kind] ++ texts ++ [secret])).toList =
      fields '_' ("seiza".toList :: kind.toList :: texts.map String.toList) secret.toList := by
  rw [String.toList_intercalate, List.map_append, List.map_append]
  exact intercalate_eq_fields ("seiza".toList :: kind.toList :: texts.map String.toList) _

theorem formatPrefixedToken_eq (kind : String) (ids : List Uuid) (secret : String) :
    formatPrefixedToken kind ids secret =
      "_".intercalate (["seiza", kind] ++ ids.map uuidText ++ [secret]) := by
  have hids : ∀ front : String,
      (ids.foldl (fun token id => token ++ "_" ++ uuidText id) front).toList ++
          '_' :: secret.toList =
        front.toList ++
          '_' :: fields '_' ((ids.map uuidText).map String.toList) secret.toList := by
    induction ids with
    | nil => simp [fields]
    | cons id ids ih =>
        intro front
        rw [List.foldl_cons, ih]
        simp [fields]
  apply String.toList_injective
  rw [toList_token]
  have hall := hids ""
  simp only [String.toList_empty, List.nil_append] at hall
  simp [formatPrefixedToken, fields, hall]

theorem uuidText_plain (id : Uuid) : '_' ∉ (uuidText id).toList :=
  Images.notMem_uuidText (by decide) (by decide) id

theorem parsePrefixedToken_iff {config : AuthConfig} {count : ℕ} {kind token : String}
    {ids : List Uuid} {secret : String} :
    config.parsePrefixedToken count kind token = some (ids, secret) ↔
      ∃ components last,
        splitAtMost '_' (3 + count) token.toList =
          "seiza".toList :: kind.toList :: components ∧
        (components.take count).mapM (fun component =>
          config.parseStr (String.ofList component)) = some ids ∧
        components[count]? = some last ∧ ids.length = count ∧ last ≠ [] ∧
          String.ofList last = secret := by
  have hofList : ∀ {chars : List Char} {text : String},
      String.ofList chars = text ↔ chars = text.toList := by
    intro chars text
    rw [← String.toList_inj, String.toList_ofList]
  unfold AuthConfig.parsePrefixedToken
  split
  next hnone => simp [hnone]
  next product rest hsplit =>
    rw [hsplit]
    split_ifs with hproduct
    · rw [ne_eq, hofList] at hproduct
      simp only [false_iff]
      rintro ⟨_, _, hsame, -⟩
      exact hproduct (List.cons.inj hsame).1
    · rw [not_not, hofList] at hproduct
      subst hproduct
      split
      next => simp
      next named components =>
        split_ifs with hnamed
        · rw [ne_eq, hofList] at hnamed
          simp [hnamed]
        · rw [not_not, hofList] at hnamed
          subst hnamed
          split
          next parsed last hparsed hlast =>
            split_ifs with hsizes
            · simp only [Option.some.injEq, Prod.mk.injEq]
              constructor
              · rintro ⟨rfl, rfl⟩
                exact ⟨components, last, rfl, hparsed, hlast, hsizes.1, hsizes.2, rfl⟩
              · rintro ⟨_, _, hsame, hids, hsecret, -, -, htext⟩
                cases hsame
                rw [hparsed] at hids
                rw [hlast] at hsecret
                cases hids
                cases hsecret
                exact ⟨rfl, htext⟩
            · simp only [false_iff]
              rintro ⟨_, _, hsame, hids, hsecret, hlength, hnonempty, -⟩
              cases hsame
              rw [hparsed] at hids
              rw [hlast] at hsecret
              cases hids
              cases hsecret
              exact hsizes ⟨hlength, hnonempty⟩
          next hneither =>
            simp only [reduceCtorEq, false_iff]
            rintro ⟨_, _, hsame, hids, hsecret, -⟩
            cases hsame
            exact hneither _ _ hids hsecret

/-- A parsed token is one that spells what was parsed. -/
theorem parsePrefixedToken_eq_some {config : AuthConfig} {count : ℕ} {kind token : String}
    (hkind : '_' ∉ kind.toList) {ids : List Uuid} {secret : String} :
    config.parsePrefixedToken count kind token = some (ids, secret) ↔
      ids.length = count ∧ Spells config kind ids secret token := by
  rw [parsePrefixedToken_iff]
  constructor
  · rintro ⟨components, last, hsplit, hids, hlast, hlength, hnonempty, rfl⟩
    refine ⟨hlength, by simpa using hnonempty, ?_⟩
    have hpieces : (splitAtMost '_' (count + 2 + 1) token.toList)[count + 2]? = some last := by
      have hcount : count + 2 + 1 = 3 + count := by omega
      rw [hcount, hsplit]
      simpa using hlast
    obtain ⟨fronts, hfronts, hplain, htoken⟩ := splitAtMost_eq hpieces
    have hagain := splitAtMost_fields hplain last
    rw [← htoken, hfronts, show count + 2 + 1 = 3 + count by omega, hsplit] at hagain
    match fronts, hfronts with
    | product :: named :: texts, hfronts =>
        have htexts : texts.length = count := by simpa using hfronts
        simp only [List.cons_append, List.cons.injEq] at hagain
        obtain ⟨rfl, rfl, rfl⟩ := hagain
        rw [List.take_left' htexts, mapM_eq_some_iff] at hids
        refine ⟨texts.map String.ofList, ?_, ?_, ?_⟩
        · intro text hmem
          obtain ⟨chars, hchars, rfl⟩ := List.mem_map.mp hmem
          rw [String.toList_ofList]
          exact hplain chars (by simp [hchars])
        · rw [List.forall₂_map_left_iff]
          exact hids
        · apply String.toList_injective
          rw [toList_token, htoken, List.map_map]
          simp [Function.comp_def]
  · rintro ⟨hlength, hnonempty, texts, htexts, hids, htoken⟩
    have hsize : texts.length = count := hids.length_eq.trans hlength
    have hplain : ∀ text ∈ "seiza".toList :: kind.toList :: texts.map String.toList,
        '_' ∉ text := by
      intro piece hmem
      rw [List.mem_cons, List.mem_cons] at hmem
      rcases hmem with rfl | rfl | hpiece
      · decide
      · exact hkind
      · obtain ⟨text, htext, rfl⟩ := List.mem_map.mp hpiece
        exact htexts text htext
    have hsplit := splitAtMost_fields hplain secret.toList
    rw [← toList_token, ← htoken] at hsplit
    simp only [List.length_cons, List.length_map, hsize] at hsplit
    refine ⟨texts.map String.toList ++ [secret.toList], secret.toList, ?_, ?_, ?_, hlength, ?_, ?_⟩
    · rw [show 3 + count = count + 1 + 1 + 1 by omega, hsplit]
      rfl
    · rw [List.take_left' (by simpa using hsize), mapM_eq_some_iff, List.forall₂_map_left_iff]
      simp only [String.ofList_toList]
      exact hids
    · simp [← hsize]
    · simpa using hnonempty
    · simp

/-- A token that is written is parsed to what it was written from. -/
theorem parsePrefixedToken_format {config : AuthConfig}
    (hparse : ∀ id, config.parseStr (uuidText id) = some id) {kind : String}
    (hkind : '_' ∉ kind.toList) (ids : List Uuid) {secret : String} (hsecret : secret ≠ "") :
    config.parsePrefixedToken ids.length kind (formatPrefixedToken kind ids secret) =
      some (ids, secret) := by
  rw [parsePrefixedToken_eq_some hkind]
  refine ⟨rfl, hsecret, ids.map uuidText, ?_, ?_, formatPrefixedToken_eq kind ids secret⟩
  · intro text hmem
    obtain ⟨id, -, rfl⟩ := List.mem_map.mp hmem
    exact uuidText_plain id
  · rw [List.forall₂_map_left_iff, List.forall₂_same]
    exact fun id _ => hparse id

theorem kind_of_spells {config : AuthConfig} {kind kind' token : String}
    (hkind : '_' ∉ kind.toList) (hkind' : '_' ∉ kind'.toList) {ids ids' : List Uuid}
    {secret secret' : String} (hspells : Spells config kind ids secret token)
    (hspells' : Spells config kind' ids' secret' token) : kind = kind' := by
  obtain ⟨-, texts, -, -, htoken⟩ := hspells
  obtain ⟨-, texts', -, -, htoken'⟩ := hspells'
  have hsame := congrArg String.toList (htoken.symm.trans htoken')
  rw [toList_token, toList_token] at hsame
  have hsplit := congrArg (splitAtMost '_' 3) hsame
  have hplain : '_' ∉ "seiza".toList := by decide
  simp only [fields, List.foldr_cons] at hsplit
  rw [splitAtMost_cons hplain, splitAtMost_cons hplain, splitAtMost_cons hkind,
    splitAtMost_cons hkind'] at hsplit
  simp only [List.cons.injEq, true_and] at hsplit
  exact String.toList_injective hsplit.1

theorem parseLoginToken_eq_some {config : AuthConfig} {token : String}
    {challengeId : ChallengeId} {secret : String} :
    config.parseLoginToken token = some (challengeId, secret) ↔
      Spells config "login" [challengeId] secret token := by
  have hparsed := @parsePrefixedToken_eq_some config 1 "login" token (by decide)
    [challengeId] secret
  unfold AuthConfig.parseLoginToken
  split
  next hsome =>
    rw [hsome] at hparsed
    simpa using hparsed
  next hneither =>
    simp only [reduceCtorEq, false_iff]
    exact fun hspells => hneither _ _ (hparsed.mpr ⟨rfl, hspells⟩)

theorem parseSessionToken_eq_some {config : AuthConfig} {token : String}
    {accountId : AccountId} {sessionId : SessionId} {secret : String} :
    config.parseSessionToken token = some (accountId, sessionId, secret) ↔
      Spells config "session" [accountId, sessionId] secret token := by
  have hparsed := @parsePrefixedToken_eq_some config 2 "session" token (by decide)
    [accountId, sessionId] secret
  unfold AuthConfig.parseSessionToken
  split
  next hsome =>
    rw [hsome] at hparsed
    simpa [and_assoc] using hparsed
  next hneither =>
    simp only [reduceCtorEq, false_iff]
    exact fun hspells => hneither _ _ _ (hparsed.mpr ⟨rfl, hspells⟩)

theorem parseApiKeyToken_eq_some {config : AuthConfig} {token : String}
    {accountId : AccountId} {keyId : ApiKeyId} {secret : String} :
    config.parseApiKeyToken token = some (accountId, keyId, secret) ↔
      Spells config "key" [accountId, keyId] secret token := by
  have hparsed := @parsePrefixedToken_eq_some config 2 "key" token (by decide)
    [accountId, keyId] secret
  unfold AuthConfig.parseApiKeyToken
  split
  next hsome =>
    rw [hsome] at hparsed
    simpa [and_assoc] using hparsed
  next hneither =>
    simp only [reduceCtorEq, false_iff]
    exact fun hspells => hneither _ _ _ (hparsed.mpr ⟨rfl, hspells⟩)

/-- Each kind of token is parsed exactly if it is well formed, what is written is
parsed back, whatever the secret, and no token is of two kinds. -/
theorem token_text {config : AuthConfig}
    (hparse : ∀ id, config.parseStr (uuidText id) = some id) :
    (∀ token challengeId secret,
      config.parseLoginToken token = some (challengeId, secret) ↔
        Spells config "login" [challengeId] secret token) ∧
    (∀ token accountId sessionId secret,
      config.parseSessionToken token = some (accountId, sessionId, secret) ↔
        Spells config "session" [accountId, sessionId] secret token) ∧
    (∀ token accountId keyId secret,
      config.parseApiKeyToken token = some (accountId, keyId, secret) ↔
        Spells config "key" [accountId, keyId] secret token) ∧
    (∀ kind ids secret, '_' ∉ kind.toList → secret ≠ "" →
      Spells config kind ids secret (formatPrefixedToken kind ids secret)) ∧
    ∀ token,
      (config.parseLoginToken token ≠ none →
        config.parseSessionToken token = none ∧ config.parseApiKeyToken token = none) ∧
      (config.parseSessionToken token ≠ none → config.parseApiKeyToken token = none) := by
  refine ⟨fun _ _ _ => parseLoginToken_eq_some, fun _ _ _ _ => parseSessionToken_eq_some,
    fun _ _ _ _ => parseApiKeyToken_eq_some, ?_, ?_⟩
  · intro kind ids secret hkind hsecret
    exact ((parsePrefixedToken_eq_some hkind).mp
      (parsePrefixedToken_format hparse hkind ids hsecret)).2
  · intro token
    have hkinds : '_' ∉ "login".toList ∧ '_' ∉ "session".toList ∧ '_' ∉ "key".toList := by
      decide
    refine ⟨?_, ?_⟩
    · intro hlogin
      obtain ⟨⟨challengeId, secret⟩, hparsed⟩ := Option.ne_none_iff_exists'.mp hlogin
      have hspells := parseLoginToken_eq_some.mp hparsed
      constructor
      · rw [Option.eq_none_iff_forall_ne_some]
        intro parsed hsession
        have hother := parseSessionToken_eq_some.mp hsession
        exact absurd (kind_of_spells hkinds.1 hkinds.2.1 hspells hother) (by decide)
      · rw [Option.eq_none_iff_forall_ne_some]
        intro parsed hkey
        have hother := parseApiKeyToken_eq_some.mp hkey
        exact absurd (kind_of_spells hkinds.1 hkinds.2.2 hspells hother) (by decide)
    · intro hsession
      obtain ⟨parsed, hparsed⟩ := Option.ne_none_iff_exists'.mp hsession
      have hspells := parseSessionToken_eq_some.mp hparsed
      rw [Option.eq_none_iff_forall_ne_some]
      intro other hkey
      have hother := parseApiKeyToken_eq_some.mp hkey
      exact absurd (kind_of_spells hkinds.2.1 hkinds.2.2 hspells hother) (by decide)

def sampleConfig : AuthConfig where
  parseStr := Migration.parseHyphenated
  trimLowercase := fun text => text
  isEmailAddress := fun _ => true
  secretDigest := fun secret => secret
  codeDigest := fun _ code => code

/-- A session token whose secret has an underscore. -/
theorem token_text_sample :
    sampleConfig.parseSessionToken (formatPrefixedToken "session" [1, 2] "a_b") =
        some (1, 2, "a_b") ∧
      sampleConfig.parseApiKeyToken (formatPrefixedToken "session" [1, 2] "a_b") = none := by
  have hparse : ∀ id, sampleConfig.parseStr (uuidText id) = some id := by
    intro id
    simp only [sampleConfig]
    exact Migration.parseHyphenated_uuidText id
  have htokens := token_text hparse
  have hspells := htokens.2.2.2.1 "session" [1, 2] "a_b" (by decide) (by decide)
  generalize formatPrefixedToken "session" [1, 2] "a_b" = token at hspells ⊢
  have hparsed := (htokens.2.1 token 1 2 "a_b").mpr hspells
  have happart := (htokens.2.2.2.2 token).2
  rw [hparsed] at happart
  exact ⟨hparsed, happart (Option.some_ne_none _)⟩

end SeizaServer.Tokens
