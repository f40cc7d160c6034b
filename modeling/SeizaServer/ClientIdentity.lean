import SeizaServer.RequestSource

/-!
# One identity for each client

The identity `rate_limit_source` and `public_client_id` give an address, against
the client the address denotes.  An IPv4 client of a dual-stack listener arrives
as an IPv6 address of the form `::ffff:a.b.c.d`.
-/

namespace SeizaServer

/-! ## Clients -/

/-- An IPv4 address, or the upper half of an IPv6 address. -/
inductive NetworkClient where
  | ipv4 (address : BitVec 32)
  | ipv6 (network : ℕ)
  deriving DecidableEq

namespace IpAddr

/-- The upper 64 bits. -/
def network (address : BitVec 128) : ℕ := address.toNat / 2 ^ 64

/-- `::ffff:a.b.c.d`. -/
def isMapped (address : BitVec 128) : Bool := address.toNat / 2 ^ 32 = 0xffff

/-- `a.b.c.d`. -/
def embedded (address : BitVec 128) : BitVec 32 := BitVec.ofNat 32 address.toNat

/-- The client an address denotes. -/
def client : IpAddr → NetworkClient
  | .v4 address => .ipv4 address
  | .v6 address =>
      if isMapped address then .ipv4 (embedded address) else .ipv6 (network address)

/-- No mapped address is in the way: where one of the two is mapped, the other one
is the same address, another IPv4 address, or an IPv6 address outside of `::/64`. -/
def Separable : IpAddr → IpAddr → Prop
  | .v4 _, .v4 _ => True
  | .v4 address, .v6 other | .v6 other, .v4 address => isMapped other → embedded other ≠ address
  | .v6 first, .v6 second =>
      if isMapped first then if isMapped second then first = second else network second ≠ 0
      else isMapped second → network first ≠ 0

end IpAddr

/-- `public_client_id`. -/
def publicClientId (sourceIp : List Char) : String :=
  match IpAddr.parse (trim sourceIp) with
  | some (.v4 address) => "public:" ++ String.ofList (IpAddr.toText (.v4 address))
  | some (.v6 address) =>
      "public:" ++ String.ofList (IpAddr.toText (.v6 (address &&& (BitVec.allOnes 128 <<< 64))))
  | none => "public:anonymous"

/-! ## Texts determine what they were written from -/

theorem digitChar_inj {first second : ℕ} (hfirst : first < 16) (hsecond : second < 16)
    (hsame : Nat.digitChar first = Nat.digitChar second) : first = second := by
  have hall : ∀ first second : Fin 16,
      Nat.digitChar first = Nat.digitChar second → first = second := by decide
  exact congrArg Fin.val (hall ⟨first, hfirst⟩ ⟨second, hsecond⟩ hsame)

theorem digitsOf_inj {radix : ℕ} (hpos : 0 < radix) (hradix : radix ≤ 16) {count : ℕ}
    {first second : ℕ} (hfirst : first < radix ^ (count + 1)) (hsecond : second < radix ^ (count + 1))
    (hsame : digitsOf radix (count + 1) first = digitsOf radix (count + 1) second) :
    first = second := by
  have hmod : ∀ value, value % radix < 16 := fun value =>
    lt_of_lt_of_le (Nat.mod_lt value hpos) hradix
  induction count generalizing first second with
  | zero =>
      rw [zero_add, pow_one] at hfirst hsecond
      simp only [digitsOf, if_pos hfirst, if_pos hsecond, List.nil_append,
        List.singleton_inj] at hsame
      have hdigit := digitChar_inj (hmod first) (hmod second) hsame
      rwa [Nat.mod_eq_of_lt hfirst, Nat.mod_eq_of_lt hsecond] at hdigit
  | succ count ih =>
      rw [digitsOf, digitsOf.eq_def radix (count + 1 + 1)] at hsame
      obtain ⟨hfront, hlast⟩ := List.append_inj' hsame rfl
      have hdigit := digitChar_inj (hmod first) (hmod second) (List.singleton_inj.mp hlast)
      have hne : ∀ value, digitsOf radix (count + 1) value ≠ [] := fun value =>
        (isAddressText_digitsOf hpos hradix count value).ne_nil
      have hquotient : first / radix = second / radix := by
        split_ifs at hfront with hsmall hother hother
        · rw [Nat.div_eq_of_lt hsmall, Nat.div_eq_of_lt hother]
        · exact absurd hfront.symm (hne _)
        · exact absurd hfront (hne _)
        · refine ih ?_ ?_ hfront
          · exact Nat.div_lt_of_lt_mul (by rwa [← pow_succ'])
          · exact Nat.div_lt_of_lt_mul (by rwa [← pow_succ'])
      rw [← Nat.div_add_mod first radix, ← Nat.div_add_mod second radix, hquotient, hdigit]

/-- The parts of a text, none of which has the separator. -/
theorem intercalate_inj {sep : Char} {first second : List (List Char)}
    (hfirst : ∀ part ∈ first, sep ∉ part) (hsecond : ∀ part ∈ second, sep ∉ part)
    (hnonempty : first ≠ [] ∧ second ≠ [])
    (hsame : [sep].intercalate first = [sep].intercalate second) : first = second := by
  rw [← List.splitOn_intercalate sep hfirst hnonempty.1,
    ← List.splitOn_intercalate sep hsecond hnonempty.2, hsame]

theorem notMem_digitsOf {sep : Char} (hsep : sep = '.' ∨ sep = ':') {radix : ℕ} (hpos : 0 < radix)
    (hradix : radix ≤ 16) (count value : ℕ) : sep ∉ digitsOf radix count value := by
  have hdigit : ∀ digit < 16, sep ≠ Nat.digitChar digit := by
    intro digit hdigit
    have hall : ∀ digit : Fin 16,
        Nat.digitChar digit ≠ '.' ∧ Nat.digitChar digit ≠ ':' := by decide
    rcases hsep with rfl | rfl
    · exact (hall ⟨digit, hdigit⟩).1.symm
    · exact (hall ⟨digit, hdigit⟩).2.symm
  have hmod : ∀ value, value % radix < 16 := fun value =>
    lt_of_lt_of_le (Nat.mod_lt value hpos) hradix
  induction count generalizing value with
  | zero => exact List.not_mem_nil
  | succ count ih =>
      rw [digitsOf, List.mem_append, List.mem_singleton, not_or]
      refine ⟨?_, hdigit _ (hmod value)⟩
      split_ifs
      · exact List.not_mem_nil
      · exact ih (value / radix)

/-- Numbers of so many digits, separated by a character. -/
theorem intercalate_digitsOf_inj {sep : Char} (hsep : sep = '.' ∨ sep = ':') {radix : ℕ}
    (hpos : 0 < radix) (hradix : radix ≤ 16) {count : ℕ} {first second : List ℕ}
    (hfirst : ∀ group ∈ first, group < radix ^ (count + 1))
    (hsecond : ∀ group ∈ second, group < radix ^ (count + 1))
    (hnonempty : first ≠ [] ∧ second ≠ [])
    (hsame : [sep].intercalate (first.map (digitsOf radix (count + 1))) =
      [sep].intercalate (second.map (digitsOf radix (count + 1)))) : first = second := by
  have hparts : ∀ groups : List ℕ, ∀ part ∈ groups.map (digitsOf radix (count + 1)),
      sep ∉ part := by
    intro groups part hpart
    obtain ⟨group, _, heq⟩ := List.mem_map.mp hpart
    rw [← heq]
    exact notMem_digitsOf hsep hpos hradix _ group
  have hmaps := intercalate_inj (hparts first) (hparts second)
    ⟨by simpa using hnonempty.1, by simpa using hnonempty.2⟩ hsame
  have hlength : first.length = second.length := by
    simpa using congrArg List.length hmaps
  apply List.ext_getElem hlength
  intro index hindex hother
  apply digitsOf_inj hpos hradix (hfirst _ (List.getElem_mem hindex))
    (hsecond _ (List.getElem_mem hother))
  have hget := congrArg (fun parts => parts[index]?) hmaps
  simpa [hindex, hother] using hget

theorem groupsOf_lt {width count value : ℕ} : ∀ group ∈ groupsOf width count value,
    group < 2 ^ width := by
  intro group hgroup
  obtain ⟨index, _, heq⟩ := List.mem_map.mp hgroup
  rw [← heq]
  exact Nat.mod_lt _ (Nat.two_pow_pos width)

theorem ipv4Text_inj {first second : BitVec 32} (hsame : ipv4Text first = ipv4Text second) :
    first = second := by
  have hbound : ∀ address : BitVec 32, ∀ group ∈ groupsOf 8 4 address.toNat, group < 10 ^ (2 + 1) :=
    fun address group hgroup => (groupsOf_lt group hgroup).trans (by norm_num)
  have hgroups := intercalate_digitsOf_inj (.inl rfl) (by omega) (by omega) (hbound first)
    (hbound second) ⟨by simp [groupsOf], by simp [groupsOf]⟩ hsame
  have hfirst := first.isLt
  have hsecond := second.isLt
  apply BitVec.eq_of_toNat_eq
  simp [groupsOf, List.range_succ] at hgroups
  omega

/-! ## The text of a network -/

theorem toNat_networkAddress (address : BitVec 128) :
    (address &&& (BitVec.allOnes 128 <<< 64)).toNat = IpAddr.network address * 2 ^ 64 := by
  have hshift : address &&& (BitVec.allOnes 128 <<< 64) = (address >>> 64) <<< 64 := by
    apply BitVec.eq_of_getLsbD_eq
    intro index hindex
    simp only [BitVec.getLsbD_and, BitVec.getLsbD_shiftLeft, BitVec.getLsbD_allOnes,
      BitVec.getLsbD_ushiftRight]
    by_cases hlow : index < 64
    · simp [hlow]
    · have hback : 64 + (index - 64) = index := by omega
      simp [hlow, hindex, hback]
      omega
  have hlt := address.isLt
  rw [hshift, BitVec.toNat_shiftLeft, BitVec.toNat_ushiftRight, Nat.shiftRight_eq_div_pow,
    Nat.shiftLeft_eq, IpAddr.network, Nat.mod_eq_of_lt]
  omega

theorem groupsOf_network (number : ℕ) :
    groupsOf 16 8 (number * 2 ^ 64) = groupsOf 16 4 number ++ [0, 0, 0, 0] := by
  simp [groupsOf, List.range_succ]
  omega

/-- The zeros at the end are the longest run. -/
theorem longestZeros_network (first second third fourth : ℕ) :
    longestZeros 0 ⟨0, 0⟩ ⟨0, 0⟩ ([first, second, third, fourth] ++ [0, 0, 0, 0]) =
      ⟨([first, second, third, fourth].rdropWhile (· = 0)).length,
        8 - ([first, second, third, fourth].rdropWhile (· = 0)).length⟩ := by
  by_cases hfirst : first = 0 <;> by_cases hsecond : second = 0 <;>
    by_cases hthird : third = 0 <;> by_cases hfourth : fourth = 0 <;>
    simp [longestZeros, List.rdropWhile, List.dropWhile, hfirst, hsecond, hthird, hfourth]

/-- The groups of a network but the zeros at the end. -/
def networkGroups (number : ℕ) : List ℕ := (groupsOf 16 4 number).rdropWhile (· = 0)

theorem ipv6Text_network {address : BitVec 128} {number : ℕ}
    (haddress : address.toNat = number * 2 ^ 64) :
    ipv6Text address = segmentsText (networkGroups number) ++ [':', ':'] := by
  have hgroups : ∃ first second third fourth,
      groupsOf 16 4 number = [first, second, third, fourth] := ⟨_, _, _, _, rfl⟩
  obtain ⟨first, second, third, fourth, hgroups⟩ := hgroups
  have hmapped : ¬ address.toNat / 2 ^ 32 = 0xffff := by
    rw [haddress]
    omega
  have hlength : (networkGroups number).length ≤ 4 := by
    rw [networkGroups, hgroups]
    exact (List.rdropWhile_prefix _ _).length_le
  have hsplit := List.rdropWhile_append_rtakeWhile (p := fun group => decide (group = 0))
    (l := groupsOf 16 4 number)
  have hzeros : longestZeros 0 ⟨0, 0⟩ ⟨0, 0⟩ (groupsOf 16 8 address.toNat) =
      ⟨(networkGroups number).length, 8 - (networkGroups number).length⟩ := by
    rw [haddress, groupsOf_network, networkGroups, hgroups]
    exact longestZeros_network first second third fourth
  have hfront : (groupsOf 16 8 address.toNat).take (networkGroups number).length =
      networkGroups number := by
    rw [haddress, groupsOf_network, ← hsplit, List.append_assoc]
    exact List.take_left
  have hback : (groupsOf 16 8 address.toNat).drop
      ((networkGroups number).length + (8 - (networkGroups number).length)) = [] := by
    apply List.drop_eq_nil_of_le
    rw [groupsOf, List.length_map, List.length_range]
    omega
  unfold ipv6Text
  simp only [if_neg hmapped, hzeros, hfront, hback]
  rw [if_pos (by omega)]
  exact List.append_nil _

theorem networkGroups_inj {first second : ℕ} (hfirst : first < 2 ^ 64) (hsecond : second < 2 ^ 64)
    (hsame : networkGroups first = networkGroups second) : first = second := by
  have hpad : ∀ number, groupsOf 16 4 number =
      networkGroups number ++ List.replicate (4 - (networkGroups number).length) 0 := by
    intro number
    have hsplit := List.rdropWhile_append_rtakeWhile (p := fun group => decide (group = 0))
      (l := groupsOf 16 4 number)
    have hcount : (groupsOf 16 4 number).length = 4 := by
      rw [groupsOf, List.length_map, List.length_range]
    have hlength := congrArg List.length hsplit
    rw [List.length_append, hcount] at hlength
    conv_lhs => rw [← hsplit]
    rw [networkGroups]
    congr 1
    rw [List.eq_replicate_iff]
    refine ⟨by omega, ?_⟩
    intro group hgroup
    have hzero := List.mem_rtakeWhile_imp hgroup
    exact of_decide_eq_true hzero
  have hgroups : groupsOf 16 4 first = groupsOf 16 4 second := by
    rw [hpad first, hpad second, hsame]
  simp [groupsOf, List.range_succ] at hgroups
  omega

theorem segmentsText_inj {first second : List ℕ} (hfirst : ∀ group ∈ first, group < 16 ^ (3 + 1))
    (hsecond : ∀ group ∈ second, group < 16 ^ (3 + 1))
    (hsame : segmentsText first = segmentsText second) : first = second := by
  have hempty : ∀ groups : List ℕ, segmentsText groups = [] → groups = [] := by
    intro groups hgroups
    cases groups with
    | nil => rfl
    | cons group rest =>
        exact absurd hgroups
          (intercalate_ne_nil (isAddressText_digitsOf (by omega) (by omega) 3 group).ne_nil)
  by_cases hnil : first = []
  · rw [hnil] at hsame ⊢
    exact (hempty second hsame.symm).symm
  · have hother : second ≠ [] := by
      intro heq
      rw [heq] at hsame
      exact hnil (hempty first hsame)
    exact intercalate_digitsOf_inj (.inr rfl) (by omega) (by omega) hfirst hsecond
      ⟨hnil, hother⟩ hsame

theorem networkText_inj {first second : BitVec 128} {number other : ℕ}
    (hfirst : first.toNat = number * 2 ^ 64) (hsecond : second.toNat = other * 2 ^ 64)
    (hsame : ipv6Text first = ipv6Text second) : number = other := by
  have hgroup : ∀ number, ∀ group ∈ networkGroups number, group < 16 ^ (3 + 1) := by
    intro number group hgroup
    have hmem := (List.rdropWhile_prefix _ _).subset hgroup
    exact groupsOf_lt group hmem
  rw [ipv6Text_network hfirst, ipv6Text_network hsecond] at hsame
  have hbound := first.isLt
  have hother := second.isLt
  exact networkGroups_inj (by omega) (by omega)
    (segmentsText_inj (hgroup number) (hgroup other) (List.append_cancel_right hsame))

theorem mem_intercalate {sep : List Char} {parts : List (List Char)} {c : Char}
    (hc : c ∈ sep.intercalate parts) : c ∈ sep ∨ ∃ part ∈ parts, c ∈ part := by
  rw [List.intercalate, List.mem_flatten] at hc
  obtain ⟨part, hpart, hc⟩ := hc
  induction parts with
  | nil => cases hpart
  | cons first rest ih =>
      cases rest with
      | nil =>
          rw [List.intersperse_singleton, List.mem_singleton] at hpart
          exact .inr ⟨first, List.mem_cons_self, hpart ▸ hc⟩
      | cons second rest =>
          rw [List.intersperse_cons_cons, List.mem_cons, List.mem_cons] at hpart
          rcases hpart with hfirst | hmiddle | hlater
          · exact .inr ⟨first, List.mem_cons_self, hfirst ▸ hc⟩
          · exact .inl (hmiddle ▸ hc)
          · refine (ih hlater).imp_right ?_
            rintro ⟨part, hmem, hc⟩
            exact ⟨part, List.mem_cons_of_mem first hmem, hc⟩

theorem ipv4Text_ne_network {address : BitVec 32} {other : BitVec 128} {number : ℕ}
    (hother : other.toNat = number * 2 ^ 64) : ipv4Text address ≠ ipv6Text other := by
  intro hsame
  have hcolon : ':' ∈ ipv4Text address := by
    rw [hsame, ipv6Text_network hother]
    simp
  cases mem_intercalate hcolon with
  | inl hsep => exact absurd hsep (by decide)
  | inr hpart =>
      obtain ⟨part, hpart, hc⟩ := hpart
      obtain ⟨group, _, heq⟩ := List.mem_map.mp hpart
      rw [← heq] at hc
      exact notMem_digitsOf (.inr rfl) (by omega) (by omega) 3 group hc

/-! ## Identities -/

/-- The bucket of an address: an IPv4 address or a network. -/
def bucketOf : IpAddr → NetworkClient
  | .v4 address => .ipv4 address
  | .v6 address => .ipv6 (IpAddr.network address)

/-- The text of a bucket. -/
def bucketText : IpAddr → List Char
  | .v4 address => ipv4Text address
  | .v6 address => ipv6Text (address &&& (BitVec.allOnes 128 <<< 64))

theorem bucketText_inj {first second : IpAddr} :
    bucketText first = bucketText second ↔ bucketOf first = bucketOf second := by
  cases first with
  | v4 first =>
      cases second with
      | v4 second =>
          rw [bucketText, bucketText, bucketOf, bucketOf, NetworkClient.ipv4.injEq]
          exact ⟨ipv4Text_inj, congrArg ipv4Text⟩
      | v6 second =>
          rw [bucketText, bucketText, bucketOf, bucketOf]
          exact iff_of_false (ipv4Text_ne_network (toNat_networkAddress second)) nofun
  | v6 first =>
      cases second with
      | v4 second =>
          rw [bucketText, bucketText, bucketOf, bucketOf]
          exact iff_of_false (ipv4Text_ne_network (toNat_networkAddress first)).symm nofun
      | v6 second =>
          rw [bucketText, bucketText, bucketOf, bucketOf, NetworkClient.ipv6.injEq]
          constructor
          · exact networkText_inj (toNat_networkAddress first) (toNat_networkAddress second)
          · intro hnetwork
            congr 1
            apply BitVec.eq_of_toNat_eq
            rw [toNat_networkAddress, toNat_networkAddress, hnetwork]

theorem rateLimitSource_eq (address : IpAddr) :
    rateLimitSource address = String.ofList (bucketText address) := by
  cases address <;> rfl

theorem rateLimitSource_inj {first second : IpAddr} :
    rateLimitSource first = rateLimitSource second ↔ bucketOf first = bucketOf second := by
  rw [rateLimitSource_eq, rateLimitSource_eq, String.ofList_inj, bucketText_inj]

theorem publicClientId_eq {text : List Char} {address : IpAddr}
    (hparse : IpAddr.parse (trim text) = some address) :
    publicClientId text = "public:" ++ rateLimitSource address := by
  rw [publicClientId, hparse]
  cases address <;> rfl

theorem publicClientId_inj {firstText secondText : List Char} {first second : IpAddr}
    (hfirst : IpAddr.parse (trim firstText) = some first)
    (hsecond : IpAddr.parse (trim secondText) = some second) :
    publicClientId firstText = publicClientId secondText ↔ bucketOf first = bucketOf second := by
  rw [publicClientId_eq hfirst, publicClientId_eq hsecond, ← rateLimitSource_inj]
  refine ⟨fun hsame => ?_, congrArg _⟩
  have hlists := congrArg String.toList hsame
  rw [String.toList_append, String.toList_append] at hlists
  exact String.toList_injective (List.append_cancel_left hlists)

theorem network_of_isMapped {address : BitVec 128} (hmapped : IpAddr.isMapped address = true) :
    IpAddr.network address = 0 := by
  have hupper : address.toNat / 2 ^ 32 = 0xffff := of_decide_eq_true hmapped
  rw [IpAddr.network]
  omega

theorem embedded_inj {first second : BitVec 128} (hfirst : IpAddr.isMapped first = true)
    (hsecond : IpAddr.isMapped second = true) :
    IpAddr.embedded first = IpAddr.embedded second ↔ first = second := by
  refine ⟨fun hsame => ?_, congrArg _⟩
  have hupper : first.toNat / 2 ^ 32 = 0xffff := of_decide_eq_true hfirst
  have hother : second.toNat / 2 ^ 32 = 0xffff := of_decide_eq_true hsecond
  have hlower := congrArg BitVec.toNat hsame
  rw [IpAddr.embedded, IpAddr.embedded, BitVec.toNat_ofNat, BitVec.toNat_ofNat] at hlower
  apply BitVec.eq_of_toNat_eq
  omega

theorem bucketOf_iff_mapped (address : BitVec 32) (other : BitVec 128) :
    (bucketOf (.v4 address) = bucketOf (.v6 other) ↔
      IpAddr.client (.v4 address) = IpAddr.client (.v6 other)) ↔
        (IpAddr.isMapped other → IpAddr.embedded other ≠ address) := by
  have hbucket : ¬ bucketOf (.v4 address) = bucketOf (.v6 other) := nofun
  rw [iff_false_left hbucket, IpAddr.client, IpAddr.client]
  by_cases hmapped : IpAddr.isMapped other = true
  · rw [if_pos hmapped, NetworkClient.ipv4.injEq, forall_prop_of_true hmapped, ne_comm]
  · rw [if_neg hmapped]
    exact iff_of_true nofun fun h => absurd h hmapped

/-- Buckets tell clients apart where no mapped address is in the way. -/
theorem bucketOf_iff (first second : IpAddr) :
    (bucketOf first = bucketOf second ↔ first.client = second.client) ↔
      IpAddr.Separable first second := by
  cases first with
  | v4 first =>
      cases second with
      | v4 second => exact iff_of_true Iff.rfl trivial
      | v6 second => exact bucketOf_iff_mapped first second
  | v6 first =>
      cases second with
      | v4 second =>
          rw [eq_comm, @eq_comm _ (IpAddr.client _)]
          exact bucketOf_iff_mapped second first
      | v6 second =>
          rw [bucketOf, bucketOf, IpAddr.client, IpAddr.client, IpAddr.Separable,
            NetworkClient.ipv6.injEq]
          by_cases hfirst : IpAddr.isMapped first = true
          · have hzero := network_of_isMapped hfirst
            rw [if_pos hfirst, if_pos hfirst, hzero]
            by_cases hsecond : IpAddr.isMapped second = true
            · rw [if_pos hsecond, if_pos hsecond, network_of_isMapped hsecond,
                NetworkClient.ipv4.injEq, embedded_inj hfirst hsecond]
              exact iff_true_left rfl
            · rw [if_neg hsecond, if_neg hsecond, ne_comm]
              exact iff_false_right nofun
          · rw [if_neg hfirst, if_neg hfirst]
            by_cases hsecond : IpAddr.isMapped second = true
            · rw [if_pos hsecond, network_of_isMapped hsecond, forall_prop_of_true hsecond]
              exact iff_false_right nofun
            · rw [if_neg hsecond, NetworkClient.ipv6.injEq]
              exact iff_of_true Iff.rfl fun h => absurd h hsecond

/-- When an identity stands for one client: exactly where no IPv4-mapped address is
in the way, for addresses of the socket and for addresses in a text. -/
theorem rate_limit_identity (first second : IpAddr) :
    ((rateLimitSource first = rateLimitSource second ↔ first.client = second.client) ↔
        IpAddr.Separable first second) ∧
    ∀ firstText secondText : List Char,
      IpAddr.parse (trim firstText) = some first →
      IpAddr.parse (trim secondText) = some second →
      ((publicClientId firstText = publicClientId secondText ↔ first.client = second.client) ↔
        IpAddr.Separable first second) := by
  constructor
  · rw [rateLimitSource_inj]
    exact bucketOf_iff first second
  · intro firstText secondText hfirst hsecond
    rw [publicClientId_inj hfirst hsecond]
    exact bucketOf_iff first second

/-- Two IPv4 clients of a dual-stack listener, `192.0.2.1` and `198.51.100.7`. -/
theorem rate_limit_identity_counterexample :
    ¬ ((∀ first second : IpAddr,
      rateLimitSource first = rateLimitSource second ↔ first.client = second.client) ∧
    ∀ (firstText secondText : List Char) (first second : IpAddr),
      IpAddr.parse (trim firstText) = some first →
      IpAddr.parse (trim secondText) = some second →
      (publicClientId firstText = publicClientId secondText ↔ first.client = second.client)) := by
  intro hclaim
  have hshared : rateLimitSource (.v6 0xffffc0000201#128) =
      rateLimitSource (.v6 0xffffc6336407#128) := by decide
  have hsame := (hclaim.1 _ _).mp hshared
  exact absurd hsame (by decide)

end SeizaServer
