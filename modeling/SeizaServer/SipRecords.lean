import SeizaServer.Annotations
import SeizaServer.PersistedJobs

/-!
# Records of SIP polynomials

The record names the exponents of each coefficient, so its lists may come in any
order.  `from_seiza`, `to_seiza` and `validate` against each other, for any lists
of exponents without repetitions.
-/

namespace SeizaServer.SipRecords

open Solver Annotations

/-! ## The record of a polynomial -/

def coefficients (terms : List (UInt8 × UInt8)) (values : List Float) : List SipCoefficient :=
  (terms.zip values).map fun ((p, q), value) => (p, q, value)

def sipFromSeiza (terms : SipTerms) (sip : Sip) : SipResponse where
  order := sip.order
  a := coefficients (terms.forward sip.order) sip.a
  b := coefficients (terms.forward sip.order) sip.b
  ap := coefficients (terms.inverse sip.order) sip.ap
  bp := coefficients (terms.inverse sip.order) sip.bp

/-- The exponents `to_seiza` looks up. -/
def sipTerms {Time : Type} (crates : Crates Time) : SipTerms :=
  ⟨crates.forwardTerms, crates.inverseTerms⟩

def exponents (coefficient : SipCoefficient) : UInt8 × UInt8 := (coefficient.1, coefficient.2.1)

/-- The coefficients are the required ones, each once and in any order. -/
def Lists (expected : List (UInt8 × UInt8)) (values : List SipCoefficient) : Prop :=
  (values.map exponents).Perm expected ∧ FiniteTerms values

/-! ## One list -/

section OneList

variable {expected : List (UInt8 × UInt8)} {values : List SipCoefficient}

/-- One round of the loop of the check. -/
def checkCoefficient (name : String) (values : List SipCoefficient) (term : UInt8 × UInt8) :
    Except String Unit :=
  match values.filter fun value => (value.1, value.2.1) == (term.1, term.2) with
  | [value] =>
      if !value.2.2.isFinite then
        throw ("SIP " ++ (name ++ "_" ++ toString term.1 ++ "_" ++ toString term.2) ++
          " must be finite")
      else pure ()
  | _ =>
      throw ("SIP " ++ name ++ " must contain coefficient " ++
        (name ++ "_" ++ toString term.1 ++ "_" ++ toString term.2) ++ " exactly once")

theorem checkCoefficient_eq_ok {name : String} {term : UInt8 × UInt8} :
    checkCoefficient name values term = .ok () ↔ ∃ value,
      (values.filter fun value => (value.1, value.2.1) == (term.1, term.2)) = [value] ∧
        value.2.2.isFinite = true := by
  unfold checkCoefficient
  generalize (values.filter fun value => (value.1, value.2.1) == (term.1, term.2)) = found
  rcases found with _ | ⟨value, _ | ⟨second, rest⟩⟩
  · simp [throw, throwThe, MonadExceptOf.throw]
  · cases hfinite : value.2.2.isFinite <;>
      simp [hfinite, throw, throwThe, MonadExceptOf.throw, pure, Except.pure]
  · simp [throw, throwThe, MonadExceptOf.throw]

theorem validateCoefficients_eq {order : UInt8} {name : String}
    (hlength : values.length = expected.length) :
    validateCoefficients order name expected values =
      expected.forM (checkCoefficient name values) := by
  unfold validateCoefficients
  rw [if_neg (not_not.mpr hlength)]
  clear hlength
  induction expected with
  | nil => rfl
  | cons term terms ih =>
      obtain ⟨p, q⟩ := term
      have hcons : ((p, q) :: terms).forM (checkCoefficient name values) = (do
          checkCoefficient name values (p, q)
          terms.forM (checkCoefficient name values)) := rfl
      rw [hcons, ← ih, List.forIn_cons, checkCoefficient]
      simp only
      generalize (values.filter fun value => (value.1, value.2.1) == (p, q)) = found
      rcases found with _ | ⟨value, _ | ⟨second, rest⟩⟩
      · rfl
      · cases hfinite : value.2.2.isFinite <;> simp only [hfinite] <;> rfl
      · rfl

theorem validateCoefficients_length {order : UInt8} {name : String}
    (hvalid : validateCoefficients order name expected values = .ok ()) :
    values.length = expected.length := by
  by_contra hlength
  unfold validateCoefficients at hvalid
  rw [if_pos hlength] at hvalid
  cases hvalid

theorem forM_eq_ok {check : UInt8 × UInt8 → Except String Unit} {terms : List (UInt8 × UInt8)} :
    terms.forM check = .ok () ↔ ∀ term ∈ terms, check term = .ok () := by
  induction terms with
  | nil => simp [List.forM, pure, Except.pure]
  | cons term terms ih =>
      have hcons : (term :: terms).forM check = (do check term; terms.forM check) := rfl
      rw [hcons, SolveOptions.bind_eq_ok, ih, List.forall_mem_cons]

/-- How often a pair of exponents is among the coefficients. -/
theorem length_filter_exponents (values : List SipCoefficient) (term : UInt8 × UInt8) :
    (values.filter fun value => (value.1, value.2.1) == (term.1, term.2)).length =
      (values.map exponents).count term := by
  rw [List.count, List.countP_map, List.countP_eq_length_filter]
  rfl

/-- The check accepts the required exponents in any order, and nothing else. -/
theorem validateCoefficients_iff {order : UInt8} {name : String} (hnodup : expected.Nodup) :
    validateCoefficients order name expected values = .ok () ↔ Lists expected values := by
  constructor
  · intro hvalid
    have hlength := validateCoefficients_length hvalid
    rw [validateCoefficients_eq hlength, forM_eq_ok] at hvalid
    have hfound := fun term hterm => checkCoefficient_eq_ok.mp (hvalid term hterm)
    have hsubset : expected ⊆ values.map exponents := by
      intro term hterm
      obtain ⟨value, hfilter, _⟩ := hfound term hterm
      have hcount := length_filter_exponents values term
      rw [hfilter, List.length_singleton] at hcount
      exact List.count_pos_iff.mp (by omega)
    have hperm : expected.Perm (values.map exponents) :=
      (hnodup.subperm hsubset).perm_of_length_le (by rw [List.length_map, hlength])
    refine ⟨hperm.symm, ?_⟩
    intro value hvalue
    have hterm : exponents value ∈ expected :=
      hperm.mem_iff.mpr (List.mem_map_of_mem hvalue)
    obtain ⟨found, hfilter, hfinite⟩ := hfound _ hterm
    have hmem : value ∈ values.filter fun other =>
        (other.1, other.2.1) == ((exponents value).1, (exponents value).2) :=
      List.mem_filter.mpr ⟨hvalue, beq_self_eq_true _⟩
    rw [hfilter, List.mem_singleton] at hmem
    rwa [hmem]
  · rintro ⟨hperm, hfinite⟩
    have hlength : values.length = expected.length := by
      rw [← hperm.length_eq, List.length_map]
    rw [validateCoefficients_eq hlength, forM_eq_ok]
    intro term hterm
    rw [checkCoefficient_eq_ok]
    have hcount : (values.map exponents).count term = 1 := by
      rw [hperm.count_eq, List.count_eq_one_of_mem hnodup hterm]
    rw [← length_filter_exponents, List.length_eq_one_iff] at hcount
    obtain ⟨value, hvalue⟩ := hcount
    have hmem : value ∈ values :=
      List.mem_of_mem_filter (by rw [hvalue]; exact List.mem_singleton_self value)
    exact ⟨value, hvalue, hfinite value hmem⟩

/-! ## Looking a coefficient up -/

/-- The first coefficient with its exponents, where they are no others'. -/
theorem find?_exponents {value : SipCoefficient} (hnodup : (values.map exponents).Nodup)
    (hvalue : value ∈ values) :
    (values.find? fun coefficient => (coefficient.1, coefficient.2.1) = exponents value) =
      some value := by
  cases hfind : values.find? fun coefficient =>
      (coefficient.1, coefficient.2.1) = exponents value with
  | none =>
      have habsent := List.find?_eq_none.mp hfind value hvalue
      exact absurd (decide_eq_true rfl) habsent
  | some found =>
      have hsame : exponents found = exponents value := by
        simpa [exponents] using List.find?_some hfind
      have hfound := List.mem_of_find?_eq_some hfind
      rw [List.inj_on_of_nodup_map hnodup hfound hvalue hsame]

theorem sipValues_perm {permuted : List SipCoefficient} (hnodup : (values.map exponents).Nodup)
    (hperm : permuted.Perm values) : sipValues expected permuted = sipValues expected values := by
  unfold sipValues
  apply List.map_congr_left
  intro term _
  congr 2
  cases hfind : values.find? fun coefficient => (coefficient.1, coefficient.2.1) = term with
  | none =>
      rw [List.find?_eq_none] at hfind ⊢
      intro value hvalue
      exact hfind value (hperm.mem_iff.mp hvalue)
  | some value =>
      have hsame : exponents value = term := by simpa [exponents] using List.find?_some hfind
      have hvalue := hperm.mem_iff.mpr (List.mem_of_find?_eq_some hfind)
      rw [← hsame]
      exact find?_exponents ((hperm.map exponents).nodup_iff.mpr hnodup) hvalue

theorem map_exponents_coefficients {numbers : List Float}
    (hlength : numbers.length = expected.length) :
    (coefficients expected numbers).map exponents = expected := by
  rw [coefficients, List.map_map]
  exact List.map_fst_zip hlength.ge

theorem sipValues_coefficients (hnodup : expected.Nodup) {numbers : List Float}
    (hlength : numbers.length = expected.length) :
    sipValues expected (coefficients expected numbers) = numbers := by
  apply List.ext_getElem
  · rw [sipValues, List.length_map, hlength]
  · intro index hindex hnumber
    have hterm : index < expected.length := hlength ▸ hnumber
    have hvalue : (expected[index].1, expected[index].2, numbers[index]) ∈
        coefficients expected numbers := by
      apply List.mem_map.mpr
      refine ⟨(expected[index], numbers[index]), ?_, rfl⟩
      have hzip : index < (expected.zip numbers).length := by
        rw [List.length_zip]
        omega
      rw [← List.getElem_zip (h := hzip)]
      exact List.getElem_mem hzip
    have hfind := find?_exponents
      (by rwa [map_exponents_coefficients hlength]) hvalue
    simp only [sipValues, List.getElem_map]
    exact congrArg (fun found => (Option.map (fun coefficient : SipCoefficient =>
      coefficient.2.2) found).getD 0) hfind

theorem finiteTerms_coefficients {numbers : List Float}
    (hlength : numbers.length = expected.length) :
    FiniteTerms (coefficients expected numbers) ↔
      ∀ number ∈ numbers, number.isFinite = true := by
  constructor
  · intro hfinite number hnumber
    have hmem : number ∈ (expected.zip numbers).map Prod.snd := by
      rwa [List.map_snd_zip hlength.le]
    obtain ⟨pair, hpair, heq⟩ := List.mem_map.mp hmem
    subst heq
    exact hfinite (pair.1.1, pair.1.2, pair.2) (List.mem_map.mpr ⟨pair, hpair, rfl⟩)
  · intro hfinite value hvalue
    obtain ⟨pair, hpair, heq⟩ := List.mem_map.mp hvalue
    subst heq
    have hnumber : pair.2 ∈ numbers := (List.of_mem_zip (a := pair.1) (b := pair.2) hpair).2
    exact hfinite pair.2 hnumber

end OneList

/-! ## Records -/

/-- The numbers of coefficients that the order asks for. -/
structure Complete (terms : SipTerms) (sip : Sip) : Prop where
  a : sip.a.length = (terms.forward sip.order).length
  b : sip.b.length = (terms.forward sip.order).length
  ap : sip.ap.length = (terms.inverse sip.order).length
  bp : sip.bp.length = (terms.inverse sip.order).length

def FiniteSip (sip : Sip) : Prop :=
  ∀ number ∈ sip.a ++ sip.b ++ sip.ap ++ sip.bp, number.isFinite = true

/-- Exponents without repetitions, for the orders a record may have. -/
structure Distinct (terms : SipTerms) : Prop where
  forward : ∀ order, 2 ≤ order → order ≤ 5 → (terms.forward order).Nodup
  inverse : ∀ order, 2 ≤ order → order ≤ 5 → (terms.inverse order).Nodup

structure Reordered (permuted record : SipResponse) : Prop where
  order : permuted.order = record.order
  a : permuted.a.Perm record.a
  b : permuted.b.Perm record.b
  ap : permuted.ap.Perm record.ap
  bp : permuted.bp.Perm record.bp

/-- What `validate` accepts. -/
structure Accepted (terms : SipTerms) (record : SipResponse) : Prop where
  order_ge : 2 ≤ record.order
  order_le : record.order ≤ 5
  a : Lists (terms.forward record.order) record.a
  b : Lists (terms.forward record.order) record.b
  ap : Lists (terms.inverse record.order) record.ap
  bp : Lists (terms.inverse record.order) record.bp

theorem Lists.perm {expected : List (UInt8 × UInt8)} {values permuted : List SipCoefficient}
    (hlists : Lists expected values) (hperm : permuted.Perm values) : Lists expected permuted :=
  ⟨(hperm.map exponents).trans hlists.1, fun value hvalue =>
    hlists.2 value (hperm.mem_iff.mp hvalue)⟩

theorem lists_coefficients {expected : List (UInt8 × UInt8)} {numbers : List Float}
    (hlength : numbers.length = expected.length) :
    Lists expected (coefficients expected numbers) ↔
      ∀ number ∈ numbers, number.isFinite = true := by
  rw [Lists, map_exponents_coefficients hlength, finiteTerms_coefficients hlength]
  exact and_iff_right (List.Perm.refl expected)

section Terms

variable {terms : SipTerms}

theorem validate_iff (hdistinct : Distinct terms) (record : SipResponse) :
    record.validate terms = .ok () ↔ Accepted terms record := by
  by_cases horder : record.order < 2 ∨ 5 < record.order
  · have hrefused : record.validate terms = .error "SIP order must be between 2 and 5" := by
      unfold SipResponse.validate
      rw [if_pos (by simpa using horder)]
      rfl
    rw [hrefused]
    refine ⟨nofun, fun haccepted => ?_⟩
    cases horder with
    | inl hlow => exact absurd haccepted.order_ge (UInt8.not_le.mpr hlow)
    | inr hhigh => exact absurd haccepted.order_le (UInt8.not_le.mpr hhigh)
  · obtain ⟨hlow, hhigh⟩ := not_or.mp horder
    rw [UInt8.not_lt] at hlow hhigh
    have hforward := hdistinct.forward record.order hlow hhigh
    have hinverse := hdistinct.inverse record.order hlow hhigh
    have hvalidate : record.validate terms = (do
        validateCoefficients record.order "A" (terms.forward record.order) record.a
        validateCoefficients record.order "B" (terms.forward record.order) record.b
        validateCoefficients record.order "AP" (terms.inverse record.order) record.ap
        validateCoefficients record.order "BP" (terms.inverse record.order) record.bp) := by
      unfold SipResponse.validate
      rw [if_neg (by simpa using horder)]
    rw [hvalidate, SolveOptions.bind_eq_ok, SolveOptions.bind_eq_ok, SolveOptions.bind_eq_ok,
      validateCoefficients_iff hforward, validateCoefficients_iff hforward,
      validateCoefficients_iff hinverse, validateCoefficients_iff hinverse]
    constructor
    · rintro ⟨ha, hb, hap, hbp⟩
      exact ⟨hlow, hhigh, ha, hb, hap, hbp⟩
    · intro haccepted
      exact ⟨haccepted.a, haccepted.b, haccepted.ap, haccepted.bp⟩

theorem Accepted.reordered {record permuted : SipResponse} (haccepted : Accepted terms record)
    (hreordered : Reordered permuted record) : Accepted terms permuted where
  order_ge := hreordered.order ▸ haccepted.order_ge
  order_le := hreordered.order ▸ haccepted.order_le
  a := hreordered.order ▸ haccepted.a.perm hreordered.a
  b := hreordered.order ▸ haccepted.b.perm hreordered.b
  ap := hreordered.order ▸ haccepted.ap.perm hreordered.ap
  bp := hreordered.order ▸ haccepted.bp.perm hreordered.bp

theorem accepted_fromSeiza {sip : Sip} (hlow : 2 ≤ sip.order) (hhigh : sip.order ≤ 5)
    (hcomplete : Complete terms sip) :
    Accepted terms (sipFromSeiza terms sip) ↔ FiniteSip sip := by
  have hparts : Accepted terms (sipFromSeiza terms sip) ↔
      ((∀ number ∈ sip.a, number.isFinite = true) ∧ (∀ number ∈ sip.b, number.isFinite = true)) ∧
        (∀ number ∈ sip.ap, number.isFinite = true) ∧
          ∀ number ∈ sip.bp, number.isFinite = true := by
    rw [← lists_coefficients hcomplete.a, ← lists_coefficients hcomplete.b,
      ← lists_coefficients hcomplete.ap, ← lists_coefficients hcomplete.bp]
    constructor
    · intro haccepted
      exact ⟨⟨haccepted.a, haccepted.b⟩, haccepted.ap, haccepted.bp⟩
    · rintro ⟨⟨ha, hb⟩, hap, hbp⟩
      exact ⟨hlow, hhigh, ha, hb, hap, hbp⟩
  rw [hparts, FiniteSip, List.forall_mem_append, List.forall_mem_append, List.forall_mem_append,
    ← and_assoc]

end Terms

section Seiza

variable {Time : Type} {crates : Crates Time}

theorem toSeiza_fromSeiza (hdistinct : Distinct (sipTerms crates)) {sip : Sip}
    (hlow : 2 ≤ sip.order) (hhigh : sip.order ≤ 5) (hcomplete : Complete (sipTerms crates) sip) :
    sipToSeiza crates (sipFromSeiza (sipTerms crates) sip) = sip := by
  have hforward := hdistinct.forward sip.order hlow hhigh
  have hinverse := hdistinct.inverse sip.order hlow hhigh
  have ha := sipValues_coefficients hforward hcomplete.a
  have hb := sipValues_coefficients hforward hcomplete.b
  have hap := sipValues_coefficients hinverse hcomplete.ap
  have hbp := sipValues_coefficients hinverse hcomplete.bp
  cases sip
  simp only [sipToSeiza, sipFromSeiza, Sip.mk.injEq, true_and]
  exact ⟨ha, hb, hap, hbp⟩

theorem toSeiza_reordered (hdistinct : Distinct (sipTerms crates)) {record permuted : SipResponse}
    (haccepted : Accepted (sipTerms crates) record) (hreordered : Reordered permuted record) :
    sipToSeiza crates permuted = sipToSeiza crates record := by
  have hforward := hdistinct.forward _ haccepted.order_ge haccepted.order_le
  have hinverse := hdistinct.inverse _ haccepted.order_ge haccepted.order_le
  simp only [sipToSeiza, hreordered.order]
  rw [sipValues_perm (haccepted.a.1.nodup_iff.mpr hforward) hreordered.a,
    sipValues_perm (haccepted.b.1.nodup_iff.mpr hforward) hreordered.b,
    sipValues_perm (haccepted.ap.1.nodup_iff.mpr hinverse) hreordered.ap,
    sipValues_perm (haccepted.bp.1.nodup_iff.mpr hinverse) hreordered.bp]

/-- Records give their polynomial back and are valid when it is finite; `validate`
accepts exactly the required exponents in any order with finite values, and
neither it nor `to_seiza` depends on the order of an accepted record's lists. -/
theorem sip_records (crates : Crates Time) (hdistinct : Distinct (sipTerms crates)) :
    (∀ sip : Sip, 2 ≤ sip.order → sip.order ≤ 5 → Complete (sipTerms crates) sip →
      sipToSeiza crates (sipFromSeiza (sipTerms crates) sip) = sip ∧
        ((sipFromSeiza (sipTerms crates) sip).validate (sipTerms crates) = .ok () ↔
          FiniteSip sip)) ∧
    (∀ record : SipResponse,
      record.validate (sipTerms crates) = .ok () ↔ Accepted (sipTerms crates) record) ∧
    ∀ record permuted : SipResponse, record.validate (sipTerms crates) = .ok () →
      Reordered permuted record →
        permuted.validate (sipTerms crates) = record.validate (sipTerms crates) ∧
          sipToSeiza crates permuted = sipToSeiza crates record := by
  refine ⟨?_, validate_iff hdistinct, ?_⟩
  · intro sip hlow hhigh hcomplete
    refine ⟨toSeiza_fromSeiza hdistinct hlow hhigh hcomplete, ?_⟩
    rw [validate_iff hdistinct, accepted_fromSeiza hlow hhigh hcomplete]
  · intro record permuted hvalid hreordered
    have haccepted := (validate_iff hdistinct record).mp hvalid
    have hpermuted := (validate_iff hdistinct permuted).mpr (haccepted.reordered hreordered)
    exact ⟨hpermuted.trans hvalid.symm, toSeiza_reordered hdistinct haccepted hreordered⟩

end Seiza

/-- All exponents whose sum is at least `lowest` and at most the order. -/
def exponentPairs (lowest : ℕ) (order : UInt8) : List (UInt8 × UInt8) :=
  ((List.range (order.toNat + 1)).flatMap fun p =>
    (List.range (order.toNat + 1 - p)).map fun q => (UInt8.ofNat p, UInt8.ofNat q)).filter
      fun term => lowest ≤ term.1.toNat + term.2.toNat

/-- A plane with the exponents of the convention. -/
def sipCrates : Crates Unit :=
  { planeCrates with forwardTerms := exponentPairs 2, inverseTerms := exponentPairs 0 }

theorem distinct_sipCrates : Distinct (sipTerms sipCrates) := by
  have horders : ∀ order : UInt8, 2 ≤ order → order ≤ 5 →
      order = 2 ∨ order = 3 ∨ order = 4 ∨ order = 5 := by
    intro order hlow hhigh
    rw [UInt8.le_iff_toNat_le] at hlow hhigh
    simp only [← UInt8.toNat_inj]
    have hlow : 2 ≤ order.toNat := hlow
    have hhigh : order.toNat ≤ 5 := hhigh
    change order.toNat = 2 ∨ order.toNat = 3 ∨ order.toNat = 4 ∨ order.toNat = 5
    omega
  constructor <;> intro order hlow hhigh <;>
    rcases horders order hlow hhigh with rfl | rfl | rfl | rfl <;> decide

def quadraticSip : Sip := ⟨2, [1, 2, 3], [-1, -2, -3], [0, 0, 0, 0, 0, 0], [0, 0, 0, 0, 0, 0]⟩

theorem sip_records_quadratic :
    sipToSeiza sipCrates (sipFromSeiza (sipTerms sipCrates) quadraticSip) = quadraticSip ∧
      (sipFromSeiza (sipTerms sipCrates) quadraticSip).validate (sipTerms sipCrates) = .ok () := by
  have hquadratic := (sip_records sipCrates distinct_sipCrates).1 quadraticSip (by decide)
    (by decide) ⟨rfl, rfl, rfl, rfl⟩
  refine ⟨hquadratic.1, hquadratic.2.mpr ?_⟩
  intro number hnumber
  have hall : ((quadraticSip.a ++ quadraticSip.b ++ quadraticSip.ap ++ quadraticSip.bp).all
      Float.isFinite) = true := by decide
  exact List.all_eq_true.mp hall number hnumber

end SeizaServer.SipRecords
