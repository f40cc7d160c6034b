import Mathlib.Data.List.DropRight
import SeizaServer.IpAddress

/-!
# The rate-limit identity of a request

The forwarded headers of a request that passed a chain of proxies, and the
address `request_source` takes from them.  A proxy appends its peer either to
the last `X-Forwarded-For` line or to all of them joined to one.
-/

namespace SeizaServer

/-! ## Header values -/

/-- A header value holds no control bytes but tabs. -/
structure HeaderValue where
  bytes : List UInt8
  valid : ∀ byte ∈ bytes, (32 ≤ byte ∧ byte ≠ 127) ∨ byte = 9

def isVisibleAscii (byte : UInt8) : Bool :=
  (32 ≤ byte && byte < 127) || byte = 9

namespace HeaderValue

/-- `to_str`: the text of the value, if all of its bytes are visible ASCII. -/
def toStr (value : HeaderValue) : Option (List Char) :=
  if value.bytes.all isVisibleAscii then
    some (value.bytes.map fun byte => Char.ofNat byte.toNat)
  else none

/-- Two values as one, separated by a comma. -/
def comma (first second : HeaderValue) : HeaderValue where
  bytes := first.bytes ++ [44, 32] ++ second.bytes
  valid := by
    intro byte hmem
    rw [List.mem_append, List.mem_append] at hmem
    rcases hmem with (hfirst | hseparator) | hsecond
    · exact first.valid byte hfirst
    · simp only [List.mem_cons, List.not_mem_nil, or_false] at hseparator
      rcases hseparator with hcomma | hspace
      · subst hcomma
        decide
      · subst hspace
        decide
    · exact second.valid byte hsecond

end HeaderValue

theorem visible_of_isAddressChar {c : Char} (haddress : isAddressChar c = true) :
    isVisibleAscii (UInt8.ofNat c.toNat) = true ∧
      Char.ofNat (UInt8.ofNat c.toNat).toNat = c ∧ c ≠ ',' ∧ c.isWhitespace = false := by
  have hall : ("0123456789abcdef.:".toList.all fun c => decide
      (isVisibleAscii (UInt8.ofNat c.toNat) = true ∧
        Char.ofNat (UInt8.ofNat c.toNat).toNat = c ∧ c ≠ ',' ∧ c.isWhitespace = false)) = true := by
    decide
  unfold isAddressChar at haddress
  exact of_decide_eq_true (List.all_eq_true.mp hall c (of_decide_eq_true haddress))

theorem valid_of_isVisibleAscii {byte : UInt8} (hvisible : isVisibleAscii byte = true) :
    (32 ≤ byte ∧ byte ≠ 127) ∨ byte = 9 := by
  unfold isVisibleAscii at hvisible
  simp only [Bool.or_eq_true, Bool.and_eq_true, decide_eq_true_eq] at hvisible
  cases hvisible with
  | inl hplain =>
      refine .inl ⟨hplain.1, ?_⟩
      intro hdelete
      rw [hdelete] at hplain
      exact absurd hplain.2 (by decide)
  | inr htab => exact .inr htab

/-- The text of an address, as a proxy appends it. -/
def HeaderValue.ofAddress (address : IpAddr) : HeaderValue where
  bytes := address.toText.map fun c => UInt8.ofNat c.toNat
  valid := by
    intro byte hmem
    obtain ⟨c, hc, heq⟩ := List.mem_map.mp hmem
    have hvisible := (visible_of_isAddressChar (address.isAddressText.all c hc)).1
    rw [← heq]
    exact valid_of_isVisibleAscii hvisible

/-- The lines of a request, their names in lower case. -/
abbrev HeaderMap := List (String × HeaderValue)

def HeaderMap.getAll (headers : HeaderMap) (name : String) : List HeaderValue :=
  (headers.filter fun line => line.1 = name).map Prod.snd

/-! ## The source of a request -/

/-- `str::trim`. -/
def trim (chars : List Char) : List Char :=
  (chars.dropWhile Char.isWhitespace).rdropWhile Char.isWhitespace

/-- The elements of the lines that `to_str` accepts. -/
def forwardedElements (values : List HeaderValue) : List (List Char) :=
  (((values.filterMap HeaderValue.toStr).flatMap fun text => text.splitOn ',').map trim).filter
    fun text => !text.isEmpty

/-- Buckets of IPv6 clients cover the prefix of 64 bits. -/
def rateLimitSource (address : IpAddr) : String :=
  match address with
  | .v4 address => String.ofList (IpAddr.toText (.v4 address))
  | .v6 address => String.ofList (IpAddr.toText (.v6 (address &&& (BitVec.allOnes 128 <<< 64))))

def requestSource (trustedProxyHops : ℕ) (headers : HeaderMap) (peer : IpAddr) : String :=
  if 0 < trustedProxyHops then
    let forwarded := forwardedElements (headers.getAll "x-forwarded-for")
    let claimed :=
      if trustedProxyHops ≤ forwarded.length then
        forwarded[forwarded.length - trustedProxyHops]?
      else ((headers.getAll "x-real-ip").head?.bind HeaderValue.toStr).map trim
    match claimed.bind IpAddr.parse with
    | some address => rateLimitSource address
    | none => rateLimitSource peer
  else rateLimitSource peer

/-! ## Proxies -/

structure Proxy where
  address : IpAddr
  /-- Whether it joins the lines before it appends. -/
  joins : Bool

namespace Proxy

/-- The lines of `X-Forwarded-For` with the peer appended. -/
def append (proxy : Proxy) (peer : IpAddr) : List HeaderValue → List HeaderValue
  | [] => [.ofAddress peer]
  | first :: rest =>
      if proxy.joins then [(rest.foldl HeaderValue.comma first).comma (.ofAddress peer)]
      else (first :: rest).dropLast ++
        [((first :: rest).getLast (List.cons_ne_nil first rest)).comma (.ofAddress peer)]

def forward (proxy : Proxy) (peer : IpAddr) (headers : HeaderMap) : HeaderMap :=
  headers.filter (fun line => line.1 ≠ "x-forwarded-for") ++
    (proxy.append peer (headers.getAll "x-forwarded-for")).map fun value =>
      ("x-forwarded-for", value)

end Proxy

/-- The request that arrives after a chain of proxies, and the peer it arrives
from. -/
def throughChain : IpAddr → List Proxy → HeaderMap → HeaderMap × IpAddr
  | peer, [], headers => (headers, peer)
  | peer, proxy :: chain, headers => throughChain proxy.address chain (proxy.forward peer headers)

/-- The source of a request that a client sent through a chain of trusted
proxies. -/
def sourceThrough (client : IpAddr) (chain : List Proxy) (headers : HeaderMap) : String :=
  requestSource chain.length (throughChain client chain headers).1
    (throughChain client chain headers).2

/-- What the client sent in the lines that the chain appends to. -/
def carrier (chain : List Proxy) (values : List HeaderValue) : List HeaderValue :=
  if chain.any Proxy.joins then values else values.getLast?.toList

/-! ### Lines after a chain -/

/-- The lines of `X-Forwarded-For` after a chain. -/
def appendChain : IpAddr → List Proxy → List HeaderValue → List HeaderValue
  | _, [], values => values
  | peer, proxy :: chain, values => appendChain proxy.address chain (proxy.append peer values)

/-- The peers a chain records. -/
def recordedPeers : IpAddr → List Proxy → List IpAddr
  | _, [] => []
  | peer, proxy :: chain => peer :: recordedPeers proxy.address chain

theorem length_recordedPeers (peer : IpAddr) (chain : List Proxy) :
    (recordedPeers peer chain).length = chain.length := by
  induction chain generalizing peer with
  | nil => rfl
  | cons proxy chain ih => exact congrArg Nat.succ (ih proxy.address)

theorem getAll_forward (proxy : Proxy) (peer : IpAddr) (headers : HeaderMap) :
    (proxy.forward peer headers).getAll "x-forwarded-for" =
      proxy.append peer (headers.getAll "x-forwarded-for") := by
  have hothers : (headers.filter fun line => line.1 ≠ "x-forwarded-for").filter
      (fun line => line.1 = "x-forwarded-for") = [] := by
    rw [List.filter_eq_nil_iff]
    intro line hmem hname
    have hother := (List.mem_filter.mp hmem).2
    simp only [decide_eq_true_eq, ne_eq, decide_not, Bool.not_eq_true', decide_eq_false_iff_not]
      at hname hother
    exact hother hname
  unfold Proxy.forward HeaderMap.getAll
  rw [List.filter_append, hothers, List.nil_append, List.filter_map, List.map_map]
  simp [Function.comp_def]

theorem getAll_forward_of_ne {name : String} (hname : name ≠ "x-forwarded-for") (proxy : Proxy)
    (peer : IpAddr) (headers : HeaderMap) :
    (proxy.forward peer headers).getAll name = headers.getAll name := by
  unfold Proxy.forward HeaderMap.getAll
  rw [List.filter_append, List.filter_filter, List.filter_map]
  have hnone : List.filter ((fun line : String × HeaderValue => decide (line.1 = name)) ∘
      fun value => ("x-forwarded-for", value))
      (proxy.append peer (List.map Prod.snd (List.filter
        (fun line => decide (line.1 = "x-forwarded-for")) headers))) = [] := by
    rw [List.filter_eq_nil_iff]
    intro value _ hsame
    exact hname (of_decide_eq_true hsame).symm
  rw [hnone, List.map_nil, List.append_nil]
  congr 1
  apply List.filter_congr
  intro line _
  by_cases hline : line.1 = name
  · simp [hline, hname]
  · simp [hline]

theorem getAll_throughChain (peer : IpAddr) (chain : List Proxy) (headers : HeaderMap) :
    (throughChain peer chain headers).1.getAll "x-forwarded-for" =
        appendChain peer chain (headers.getAll "x-forwarded-for") ∧
      (throughChain peer chain headers).1.getAll "x-real-ip" = headers.getAll "x-real-ip" := by
  induction chain generalizing peer headers with
  | nil => exact ⟨rfl, rfl⟩
  | cons proxy chain ih =>
      have hnext := ih proxy.address (proxy.forward peer headers)
      rw [getAll_forward, getAll_forward_of_ne (by decide)] at hnext
      exact hnext

theorem throughChain_peer (peer : IpAddr) (chain : List Proxy) (first second : HeaderMap) :
    (throughChain peer chain first).2 = (throughChain peer chain second).2 := by
  induction chain generalizing peer first second with
  | nil => rfl
  | cons proxy chain ih => exact ih proxy.address _ _

/-! ### Elements of appended lines -/

theorem forwardedElements_append (first second : List HeaderValue) :
    forwardedElements (first ++ second) = forwardedElements first ++ forwardedElements second := by
  unfold forwardedElements
  rw [List.filterMap_append, List.flatMap_append, List.map_append, List.filter_append]

theorem toStr_comma (first second : HeaderValue) :
    (first.comma second).toStr =
      first.toStr.bind fun front => second.toStr.map fun back => front ++ ',' :: ' ' :: back := by
  unfold HeaderValue.toStr HeaderValue.comma
  have hseparator : ([44, 32] : List UInt8).all isVisibleAscii = true := by decide
  simp only [List.all_append, hseparator, Bool.and_true]
  cases hfirst : first.bytes.all isVisibleAscii with
  | false => simp
  | true =>
      cases hsecond : second.bytes.all isVisibleAscii with
      | false => simp
      | true =>
          simp only [Bool.and_self, if_true, List.map_append, Option.bind_some, Option.map_some,
            List.append_assoc]
          rfl

theorem isSome_toStr_comma (first second : HeaderValue) :
    (first.comma second).toStr.isSome = (first.toStr.isSome && second.toStr.isSome) := by
  rw [toStr_comma]
  cases first.toStr with
  | none => rfl
  | some front => cases second.toStr <;> rfl

theorem toStr_ofAddress (address : IpAddr) :
    (HeaderValue.ofAddress address).toStr = some address.toText := by
  have hvisible : (HeaderValue.ofAddress address).bytes.all isVisibleAscii = true := by
    rw [List.all_eq_true]
    intro byte hmem
    obtain ⟨c, hc, heq⟩ := List.mem_map.mp hmem
    rw [← heq]
    exact (visible_of_isAddressChar (address.isAddressText.all c hc)).1
  unfold HeaderValue.toStr
  rw [if_pos hvisible]
  unfold HeaderValue.ofAddress
  rw [List.map_map, Option.some_inj]
  have hsame : address.toText.map ((fun byte => Char.ofNat byte.toNat) ∘
      fun c => UInt8.ofNat c.toNat) = address.toText.map id := by
    apply List.map_congr_left
    intro c hmem
    exact (visible_of_isAddressChar (address.isAddressText.all c hmem)).2.1
  rw [hsame, List.map_id]

theorem trim_space (chars : List Char) : trim (' ' :: chars) = trim chars := by
  unfold trim
  rw [List.dropWhile_cons_of_pos (by decide)]

theorem trim_eq_self {chars : List Char} (hplain : ∀ c ∈ chars, c.isWhitespace = false) :
    trim chars = chars := by
  unfold trim
  have hfront : chars.dropWhile Char.isWhitespace = chars := by
    rw [List.dropWhile_eq_self_iff]
    intro hpos
    rw [hplain _ (List.getElem_mem hpos)]
    exact Bool.false_ne_true
  rw [hfront, List.rdropWhile_eq_self_iff]
  intro hne
  rw [hplain _ (List.getLast_mem hne)]
  exact Bool.false_ne_true

/-- Leading spaces do not change the elements. -/
theorem elements_space (chars : List Char) :
    (((' ' :: chars).splitOn ',').map trim) = (chars.splitOn ',').map trim := by
  rw [List.splitOn_cons_eq_if_modifyHead]
  have hspace : ((' ' : Char) == ',') = false := by decide
  rw [hspace]
  cases chars.splitOn ',' with
  | nil => rfl
  | cons first rest =>
      change trim (' ' :: first) :: rest.map trim = _
      rw [trim_space]
      rfl

theorem forwardedElements_comma {first second : HeaderValue} (hfirst : first.toStr.isSome)
    (hsecond : second.toStr.isSome) :
    forwardedElements [first.comma second] =
      forwardedElements [first] ++ forwardedElements [second] := by
  obtain ⟨front, hfront⟩ := Option.isSome_iff_exists.mp hfirst
  obtain ⟨back, hback⟩ := Option.isSome_iff_exists.mp hsecond
  have hboth : (first.comma second).toStr = some (front ++ ',' :: ' ' :: back) := by
    rw [toStr_comma, hfront, hback]
    rfl
  unfold forwardedElements
  simp only [List.filterMap_cons, List.filterMap_nil, hfront, hback, hboth, List.flatMap_cons,
    List.flatMap_nil, List.append_nil]
  rw [List.splitOn_append_cons_self, List.map_append, elements_space, List.filter_append]

theorem forwardedElements_ofAddress (address : IpAddr) :
    forwardedElements [.ofAddress address] = [address.toText] := by
  have htext := address.isAddressText
  have hcomma : ',' ∉ address.toText := by
    intro hmem
    exact (visible_of_isAddressChar (htext.all _ hmem)).2.2.1 rfl
  have htrim : trim address.toText = address.toText :=
    trim_eq_self fun c hmem => (visible_of_isAddressChar (htext.all c hmem)).2.2.2
  have hne : address.toText.isEmpty = false := by
    rw [List.isEmpty_eq_false_iff]
    exact htext.ne_nil
  unfold forwardedElements
  simp only [List.filterMap_cons, List.filterMap_nil, toStr_ofAddress, List.flatMap_cons,
    List.flatMap_nil, List.append_nil, List.splitOn_eq_singleton hcomma, List.map_cons,
    List.map_nil, htrim, List.filter_cons, hne, List.filter_nil]
  rfl

theorem forwardedElements_of_toStr_eq_none {value : HeaderValue} (hnone : value.toStr = none) :
    forwardedElements [value] = [] := by
  unfold forwardedElements
  rw [List.filterMap_cons_none hnone]
  rfl

/-! ### Elements after a chain -/

/-- All of these values are accepted by `to_str`. -/
def Decodable (values : List HeaderValue) : Prop :=
  ∀ value ∈ values, value.toStr.isSome

theorem isSome_toStr_foldl (first : HeaderValue) (rest : List HeaderValue) :
    (rest.foldl HeaderValue.comma first).toStr.isSome =
      (first :: rest).all fun value => value.toStr.isSome := by
  induction rest generalizing first with
  | nil => simp
  | cons second rest ih =>
      rw [List.foldl_cons, ih, List.all_cons, isSome_toStr_comma]
      simp [Bool.and_assoc]

theorem forwardedElements_foldl {first : HeaderValue} {rest : List HeaderValue}
    (hdecodable : Decodable (first :: rest)) :
    forwardedElements [rest.foldl HeaderValue.comma first] = forwardedElements (first :: rest) := by
  induction rest generalizing first with
  | nil => rfl
  | cons second rest ih =>
      have hfirst := hdecodable first List.mem_cons_self
      have hsecond := hdecodable second (List.mem_cons_of_mem _ List.mem_cons_self)
      have hjoined : Decodable (first.comma second :: rest) := by
        intro value hmem
        cases hmem with
        | head =>
            rw [isSome_toStr_comma, hfirst, hsecond]
            rfl
        | tail _ hrest =>
            exact hdecodable value (List.mem_cons_of_mem _ (List.mem_cons_of_mem _ hrest))
      rw [List.foldl_cons, ih hjoined, ← List.singleton_append, forwardedElements_append,
        forwardedElements_comma hfirst hsecond, ← forwardedElements_append,
        ← forwardedElements_append]
      rfl

/-- A proxy that appends to decodable text adds its peer as the last element,
and what it leaves is decodable where the next proxies append. -/
theorem append_decodable {proxy : Proxy} {chain : List Proxy} {values : List HeaderValue}
    (peer : IpAddr) (hdecodable : Decodable (carrier (proxy :: chain) values)) :
    forwardedElements (proxy.append peer values) =
        forwardedElements values ++ [peer.toText] ∧
      Decodable (carrier chain (proxy.append peer values)) := by
  have hpeer : (HeaderValue.ofAddress peer).toStr.isSome := by
    rw [toStr_ofAddress]
    rfl
  cases values with
  | nil =>
      constructor
      · exact forwardedElements_ofAddress peer
      · intro value hmem
        have hsame : value = .ofAddress peer := by
          unfold carrier at hmem
          split_ifs at hmem <;> simpa [Proxy.append] using hmem
        rw [hsame]
        exact hpeer
  | cons first rest =>
      unfold carrier at hdecodable
      rw [List.any_cons] at hdecodable
      unfold Proxy.append
      split_ifs with hjoins
      · rw [hjoins, Bool.true_or, if_pos rfl] at hdecodable
        have hall : (rest.foldl HeaderValue.comma first).toStr.isSome := by
          rw [isSome_toStr_foldl, List.all_eq_true]
          exact hdecodable
        constructor
        · rw [forwardedElements_comma hall hpeer, forwardedElements_foldl hdecodable,
            forwardedElements_ofAddress]
        · intro value hmem
          have hsame : value = (rest.foldl HeaderValue.comma first).comma (.ofAddress peer) := by
            unfold carrier at hmem
            split_ifs at hmem <;> simpa using hmem
          rw [hsame, isSome_toStr_comma, hall, hpeer]
          rfl
      · have hlast : ((first :: rest).getLast (List.cons_ne_nil _ _)).toStr.isSome := by
          split_ifs at hdecodable
          · exact hdecodable _ (List.getLast_mem _)
          · apply hdecodable
            rw [List.getLast?_eq_getLast_of_ne_nil (List.cons_ne_nil _ _)]
            exact List.mem_singleton_self _
        have hnew : (((first :: rest).getLast (List.cons_ne_nil _ _)).comma
            (.ofAddress peer)).toStr.isSome := by
          rw [isSome_toStr_comma, hlast, hpeer]
          rfl
        constructor
        · rw [forwardedElements_append, forwardedElements_comma hlast hpeer, ← List.append_assoc,
            ← forwardedElements_append, List.dropLast_append_getLast, forwardedElements_ofAddress]
        · unfold carrier
          split_ifs with hlater
          · rw [hlater, Bool.or_true, if_pos rfl] at hdecodable
            intro value hmem
            rw [List.mem_append, List.mem_singleton] at hmem
            cases hmem with
            | inl hold => exact hdecodable value (List.mem_of_mem_dropLast hold)
            | inr hsame =>
                rw [hsame]
                exact hnew
          · intro value hmem
            rw [List.getLast?_append_cons] at hmem
            have hsame := List.mem_singleton.mp hmem
            rw [hsame]
            exact hnew

/-- The peers recorded by a chain are the last elements of its lines. -/
theorem forwardedElements_appendChain {chain : List Proxy} {values : List HeaderValue}
    (peer : IpAddr) (hdecodable : Decodable (carrier chain values)) :
    forwardedElements (appendChain peer chain values) =
      forwardedElements values ++ (recordedPeers peer chain).map IpAddr.toText := by
  induction chain generalizing peer values with
  | nil => exact (List.append_nil _).symm
  | cons proxy chain ih =>
      obtain ⟨helements, hnext⟩ := append_decodable peer hdecodable
      rw [appendChain, ih proxy.address hnext, helements, List.append_assoc]
      rfl

/-- Undecodable text stays undecodable when a proxy appends to it. -/
theorem append_undecodable {proxy : Proxy} {value : HeaderValue} (peer : IpAddr)
    (hnone : value.toStr = none) :
    ∃ next : HeaderValue, proxy.append peer [value] = [next] ∧ next.toStr = none := by
  have hcomma : (value.comma (.ofAddress peer)).toStr = none := by
    rw [toStr_comma, hnone]
    rfl
  refine ⟨value.comma (.ofAddress peer), ?_, hcomma⟩
  unfold Proxy.append
  cases proxy.joins <;> rfl

theorem appendChain_undecodable {chain : List Proxy} {value : HeaderValue} (peer : IpAddr)
    (hnone : value.toStr = none) :
    ∃ next : HeaderValue, appendChain peer chain [value] = [next] ∧ next.toStr = none := by
  induction chain generalizing peer value with
  | nil => exact ⟨value, rfl, hnone⟩
  | cons proxy chain ih =>
      obtain ⟨next, happend, hnext⟩ := @append_undecodable proxy value peer hnone
      rw [appendChain, happend]
      exact ih proxy.address hnext

/-- A chain that joins lines of which one is undecodable leaves one
undecodable line. -/
theorem appendChain_joined {chain : List Proxy} {values : List HeaderValue} (peer : IpAddr)
    (hjoins : chain.any Proxy.joins = true) (hnone : ∃ value ∈ values, value.toStr = none) :
    ∃ next : HeaderValue, appendChain peer chain values = [next] ∧ next.toStr = none := by
  induction chain generalizing peer values with
  | nil => cases hjoins
  | cons proxy chain ih =>
      cases values with
      | nil =>
          obtain ⟨value, hmem, _⟩ := hnone
          cases hmem
      | cons first rest =>
          obtain ⟨value, hmem, hvalue⟩ := hnone
          rw [appendChain, Proxy.append]
          split_ifs with hhere
          · apply appendChain_undecodable
            have hjoined : (rest.foldl HeaderValue.comma first).toStr.isSome = false := by
              rw [isSome_toStr_foldl, List.all_eq_false]
              refine ⟨value, hmem, ?_⟩
              rw [hvalue]
              exact Bool.false_ne_true
            rw [toStr_comma, Option.isSome_eq_false_iff.mp hjoined |> Option.isNone_iff_eq_none.mp]
            rfl
          · have hlater : chain.any Proxy.joins = true := by
              rw [List.any_cons] at hjoins
              simpa [hhere] using hjoins
            apply ih proxy.address hlater
            rw [← List.dropLast_append_getLast (List.cons_ne_nil first rest), List.mem_append,
              List.mem_singleton] at hmem
            cases hmem with
            | inl hold => exact ⟨value, List.mem_append_left _ hold, hvalue⟩
            | inr hsame =>
                refine ⟨_, List.mem_append_right _ (List.mem_singleton_self _), ?_⟩
                rw [toStr_comma, ← hsame, hvalue]
                rfl

/-- The lines a chain appends to are what remains if only they are sent. -/
theorem carrier_carrier (chain : List Proxy) (values : List HeaderValue) :
    carrier chain (carrier chain values) = carrier chain values := by
  unfold carrier
  split_ifs
  · rfl
  · cases values.getLast? <;> rfl

theorem forwardedElements_undecodable {chain : List Proxy} {values : List HeaderValue}
    (peer : IpAddr) (hundecodable : ¬ Decodable (carrier chain values)) :
    forwardedElements (appendChain peer chain (carrier chain values)) = [] := by
  unfold Decodable at hundecodable
  simp only [not_forall] at hundecodable
  obtain ⟨value, hmem, hvalue⟩ := hundecodable
  rw [Option.not_isSome_iff_eq_none] at hvalue
  have hline : ∃ next : HeaderValue,
      appendChain peer chain (carrier chain values) = [next] ∧ next.toStr = none := by
    unfold carrier at hmem ⊢
    split_ifs at hmem ⊢ with hjoins
    · exact appendChain_joined peer hjoins ⟨value, hmem, hvalue⟩
    · rw [Option.mem_toList] at hmem
      rw [hmem]
      exact appendChain_undecodable peer hvalue
  obtain ⟨next, happend, hnext⟩ := hline
  rw [happend]
  exact forwardedElements_of_toStr_eq_none hnext

/-! ## The client cannot choose its source -/

/-- The source if the client sends the lines that the chain appends to, all of
them decodable. -/
theorem sourceThrough_of_decodable {chain : List Proxy} (client : IpAddr) (hchain : chain ≠ [])
    {headers : HeaderMap}
    (hdecodable : Decodable (carrier chain (headers.getAll "x-forwarded-for"))) :
    sourceThrough client chain headers =
      match IpAddr.parse client.toText with
      | some address => rateLimitSource address
      | none => rateLimitSource (throughChain client chain []).2 := by
  have hpos := List.length_pos_of_ne_nil hchain
  have helements := forwardedElements_appendChain client hdecodable
  have hrecorded := length_recordedPeers client chain
  obtain ⟨proxy, rest, hcons⟩ := List.exists_cons_of_ne_nil hchain
  have hfirst : ((recordedPeers client chain).map IpAddr.toText)[0]? = some client.toText := by
    rw [hcons]
    rfl
  unfold sourceThrough requestSource
  rw [if_pos hpos, (getAll_throughChain client chain headers).1, helements,
    throughChain_peer client chain headers []]
  simp only [List.length_append, List.length_map, hrecorded, Nat.le_add_left, if_true,
    Nat.add_sub_cancel]
  rw [List.getElem?_append_right (le_refl _), Nat.sub_self, hfirst]
  rfl

/-- The source if these lines are not decodable: the client chooses it with
`X-Real-IP`. -/
theorem sourceThrough_of_undecodable {chain : List Proxy} (client : IpAddr) (hchain : chain ≠ [])
    {values : List HeaderValue} (hundecodable : ¬ Decodable (carrier chain values))
    (address : IpAddr) (hparse : IpAddr.parse (trim address.toText) = some address) :
    ∃ headers : HeaderMap,
      carrier chain (headers.getAll "x-forwarded-for") = carrier chain values ∧
        sourceThrough client chain headers = rateLimitSource address := by
  have hpos := List.length_pos_of_ne_nil hchain
  have helements := forwardedElements_undecodable client hundecodable
  let headers : HeaderMap := (carrier chain values).map (fun value => ("x-forwarded-for", value)) ++
    [("x-real-ip", HeaderValue.ofAddress address)]
  have hforwarded : headers.getAll "x-forwarded-for" = carrier chain values := by
    unfold HeaderMap.getAll
    rw [List.filter_append, List.filter_map, List.map_append, List.map_map]
    simp [Function.comp_def]
  have hrealIp : headers.getAll "x-real-ip" = [HeaderValue.ofAddress address] := by
    unfold HeaderMap.getAll
    rw [List.filter_append, List.filter_map, List.map_append, List.map_map]
    simp [Function.comp_def]
  refine ⟨headers, ?_, ?_⟩
  · rw [hforwarded, carrier_carrier]
  · have hlines := getAll_throughChain client chain headers
    rw [hforwarded, hrealIp] at hlines
    unfold sourceThrough requestSource
    rw [if_pos hpos, hlines.1, hlines.2, helements]
    simp only [List.length_nil, Nat.not_le.mpr hpos, if_false, List.head?_cons, Option.bind_some,
      toStr_ofAddress, Option.map_some, hparse]

theorem decodable_nil (chain : List Proxy) : Decodable (carrier chain []) := by
  intro value hmem
  unfold carrier at hmem
  split_ifs at hmem <;> cases hmem

/-- Two requests of a client have the same source if `to_str` accepts the text
that the first proxies append to; and this condition is exact: all requests
with the same such text have the source of a request without headers only if
`to_str` accepts it. -/
theorem request_source_noninterference (client : IpAddr) {chain : List Proxy}
    (hchain : chain ≠ []) :
    (∀ first second : HeaderMap,
        Decodable (carrier chain (first.getAll "x-forwarded-for")) →
          Decodable (carrier chain (second.getAll "x-forwarded-for")) →
            sourceThrough client chain first = sourceThrough client chain second) ∧
      ∀ values,
        (∀ headers : HeaderMap,
            carrier chain (headers.getAll "x-forwarded-for") = carrier chain values →
              sourceThrough client chain headers = sourceThrough client chain []) ↔
          Decodable (carrier chain values) := by
  have hsame : ∀ first second : HeaderMap,
      Decodable (carrier chain (first.getAll "x-forwarded-for")) →
        Decodable (carrier chain (second.getAll "x-forwarded-for")) →
          sourceThrough client chain first = sourceThrough client chain second := by
    intro first second hfirst hsecond
    rw [sourceThrough_of_decodable client hchain hfirst,
      sourceThrough_of_decodable client hchain hsecond]
  refine ⟨hsame, fun values => ⟨?_, ?_⟩⟩
  · intro hplain
    by_contra hundecodable
    -- Two addresses a client may put into `X-Real-IP`.
    let first : IpAddr := .v4 0x0a000001#32
    let second : IpAddr := .v4 0x0a000002#32
    obtain ⟨firstHeaders, hfirst, hfirstSource⟩ := sourceThrough_of_undecodable client hchain
      hundecodable first (by decide)
    obtain ⟨secondHeaders, hsecond, hsecondSource⟩ := sourceThrough_of_undecodable client hchain
      hundecodable second (by decide)
    have hboth : rateLimitSource first = rateLimitSource second := by
      rw [← hfirstSource, ← hsecondSource, hplain firstHeaders hfirst, hplain secondHeaders hsecond]
    exact absurd hboth (by decide)
  · intro hdecodable headers hcarrier
    rw [← hcarrier] at hdecodable
    exact hsame headers [] hdecodable (decodable_nil chain)

/-- A request with two lines of text, of which a joining proxy makes one, and a
request without any. -/
theorem request_source_noninterference_joined :
    sourceThrough (.v4 0xc0000207#32) [⟨.v4 0x0a000001#32, true⟩]
        [("x-forwarded-for", .ofAddress (.v4 0xc6336401#32)),
          ("x-forwarded-for", .ofAddress (.v4 0xc6336402#32))] =
      sourceThrough (.v4 0xc0000207#32) [⟨.v4 0x0a000001#32, true⟩] [] := by
  apply (request_source_noninterference _ (List.cons_ne_nil _ _)).1
  · intro value hmem
    have hvalue : value = .ofAddress (.v4 0xc6336401#32) ∨
        value = .ofAddress (.v4 0xc6336402#32) := by
      simpa [carrier, HeaderMap.getAll] using hmem
    rcases hvalue with hfirst | hsecond
    · rw [hfirst, toStr_ofAddress]
      rfl
    · rw [hsecond, toStr_ofAddress]
      rfl
  · exact decodable_nil _

/-- A line with one byte beyond ASCII, and the `X-Real-IP` of a client's
choice. -/
def undecodableHeaders (address : IpAddr) : HeaderMap :=
  [("x-forwarded-for", ⟨[0xe9], List.forall_mem_singleton.mpr (by decide)⟩),
    ("x-real-ip", .ofAddress address)]

/-- Two requests of one client through one proxy with different sources. -/
theorem request_source_counterexample :
    ∃ (client : IpAddr) (chain : List Proxy) (first second : HeaderMap), chain ≠ [] ∧
      sourceThrough client chain first ≠ sourceThrough client chain second := by
  refine ⟨.v4 0xc0000207#32, [⟨.v4 0x0a000001#32, false⟩],
    undecodableHeaders (.v4 0xc6336401#32), undecodableHeaders (.v4 0xc6336402#32),
    List.cons_ne_nil _ _, ?_⟩
  decide

end SeizaServer
