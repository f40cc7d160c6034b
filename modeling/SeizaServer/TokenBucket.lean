import Mathlib.Tactic

/-!
# Token buckets

A bucket holds at most `capacity` tokens, refills at a constant rate and pays
one token for every acceptance.  Whatever the times of the attempts, a window
of a given length sees at most the capacity and one refill of it.
-/

namespace TokenBucket

structure Limits where
  capacity : ℚ
  refill : ℚ

variable {ε : Type*} {limits : Limits} {time : ε → ℚ} {accepted : ε → Bool}

/-- The level of a bucket after some time without payments. -/
def Limits.later (limits : Limits) (level waited : ℚ) : ℚ :=
  min (level + waited * limits.refill) limits.capacity

theorem Limits.later_later {level first second : ℚ} (hsecond : 0 ≤ second * limits.refill) :
    limits.later (limits.later level first) second = limits.later level (first + second) := by
  unfold Limits.later
  rw [min_add, min_assoc, min_eq_right (le_add_of_nonneg_right hsecond), add_mul, add_assoc]

/-- The attempts are in order of time, and every accepted one found a token.
The level and the time are those after the previous attempt. -/
def Pays (limits : Limits) (time : ε → ℚ) (accepted : ε → Bool) : ℚ → ℚ → List ε → Prop
  | _, _, [] => True
  | level, since, attempt :: rest =>
      since ≤ time attempt ∧ ∃ left, 0 ≤ left ∧
        left + (if accepted attempt then 1 else 0) ≤ limits.later level (time attempt - since) ∧
          Pays limits time accepted left (time attempt) rest

/-- The accepted attempts of a closed window. -/
def within (time : ε → ℚ) (accepted : ε → Bool) (start finish : ℚ) (attempts : List ε) : List ε :=
  attempts.filter fun attempt =>
    accepted attempt && (decide (start ≤ time attempt) && decide (time attempt ≤ finish))

theorem Pays.since_le {level since : ℚ} {attempts : List ε}
    (hpays : Pays limits time accepted level since attempts) :
    ∀ attempt ∈ attempts, since ≤ time attempt := by
  induction attempts generalizing level since with
  | nil =>
      intro attempt hmem
      cases hmem
  | cons first rest ih =>
      obtain ⟨hsince, left, _, _, hrest⟩ := hpays
      intro attempt hmem
      rw [List.mem_cons] at hmem
      cases hmem with
      | inl hfirst =>
          rw [hfirst]
          exact hsince
      | inr hlater => exact hsince.trans (ih hrest attempt hlater)

/-- A bucket that held more before pays as well. -/
theorem Pays.earlier {level since before start : ℚ}
    {attempts : List ε} (hpays : Pays limits time accepted level since attempts)
    (hsince : start ≤ since) (hlevel : level ≤ limits.later before (since - start)) :
    Pays limits time accepted before start attempts := by
  cases attempts with
  | nil => trivial
  | cons attempt rest =>
      obtain ⟨htime, left, hleft, hpaid, hrest⟩ := hpays
      refine ⟨hsince.trans htime, left, hleft, hpaid.trans ?_, hrest⟩
      unfold Limits.later at hlevel ⊢
      have hfrom : level ≤ before + (since - start) * limits.refill := hlevel.trans (min_le_left _ _)
      apply min_le_min_right
      calc
        level + (time attempt - since) * limits.refill ≤
            before + (since - start) * limits.refill +
              (time attempt - since) * limits.refill := by linarith
        _ = before + (time attempt - start) * limits.refill := by ring

/-- What is accepted until some time was paid from the level and its refill. -/
theorem Pays.length_le (hrefill : 0 ≤ limits.refill) {level since start finish : ℚ}
    {attempts : List ε} (hpays : Pays limits time accepted level since attempts)
    (hlevel : 0 ≤ level) (hfinish : since ≤ finish) :
    ((within time accepted start finish attempts).length : ℚ) ≤
      level + (finish - since) * limits.refill := by
  induction attempts generalizing level since with
  | nil =>
      have hwait : 0 ≤ (finish - since) * limits.refill :=
        mul_nonneg (sub_nonneg.mpr hfinish) hrefill
      simp only [within, List.filter_nil, List.length_nil, Nat.cast_zero]
      linarith
  | cons attempt rest ih =>
      have hbefore := hpays.since_le
      obtain ⟨hsince, left, hleft, hpaid, hrest⟩ := hpays
      by_cases htime : time attempt ≤ finish
      · have hlater : limits.later level (time attempt - since) ≤
            level + (time attempt - since) * limits.refill := min_le_left _ _
        have hcount : ((within time accepted start finish (attempt :: rest)).length : ℚ) ≤
            (within time accepted start finish rest).length +
              (if accepted attempt then 1 else 0) := by
          unfold within
          rw [List.filter_cons]
          by_cases haccepted : accepted attempt = true
          · rw [if_pos haccepted]
            split_ifs
            · rw [List.length_cons]
              push_cast
              exact le_rfl
            · linarith
          · simp [haccepted]
        have hwindow := ih hrest hleft htime
        calc
          ((within time accepted start finish (attempt :: rest)).length : ℚ) ≤
              (within time accepted start finish rest).length +
                (if accepted attempt then 1 else 0) := hcount
          _ ≤ left + (finish - time attempt) * limits.refill +
                (if accepted attempt then 1 else 0) := by linarith
          _ ≤ level + (time attempt - since) * limits.refill +
                (finish - time attempt) * limits.refill := by linarith
          _ = level + (finish - since) * limits.refill := by ring
      · -- Attempts come in order, so none of the others is in the window.
        have hnone : within time accepted start finish (attempt :: rest) = [] := by
          unfold within
          rw [List.filter_eq_nil_iff]
          intro other hmem hin
          simp only [Bool.and_eq_true, decide_eq_true_eq] at hin
          have horder : time attempt ≤ time other := by
            rw [List.mem_cons] at hmem
            cases hmem with
            | inl hfirst => rw [hfirst]
            | inr hlater => exact hrest.since_le other hlater
          exact htime (horder.trans hin.2.2)
        have hwait : 0 ≤ (finish - since) * limits.refill :=
          mul_nonneg (sub_nonneg.mpr hfinish) hrefill
        rw [hnone]
        simp only [List.length_nil, Nat.cast_zero]
        linarith

/-- The law of the bucket: a window sees at most the capacity and its refill. -/
theorem Pays.length_window_le (hrefill : 0 ≤ limits.refill) (hcapacity : 0 ≤ limits.capacity)
    {level since start finish : ℚ} {attempts : List ε}
    (hpays : Pays limits time accepted level since attempts) (hwindow : start ≤ finish) :
    ((within time accepted start finish attempts).length : ℚ) ≤
      limits.capacity + (finish - start) * limits.refill := by
  have hwait : 0 ≤ (finish - start) * limits.refill :=
    mul_nonneg (sub_nonneg.mpr hwindow) hrefill
  induction attempts generalizing level since with
  | nil =>
      simp only [within, List.filter_nil, List.length_nil, Nat.cast_zero]
      linarith
  | cons attempt rest ih =>
      obtain ⟨hsince, left, hleft, hpaid, hrest⟩ := hpays
      by_cases hstart : start ≤ time attempt
      · by_cases hfinish : time attempt ≤ finish
        · -- The window opens with this attempt, at a level within the capacity.
          have hfirst : Pays limits time accepted limits.capacity (time attempt)
              (attempt :: rest) := by
            refine ⟨le_rfl, left, hleft, hpaid.trans ?_, hrest⟩
            unfold Limits.later
            rw [sub_self, zero_mul, add_zero, min_self]
            exact min_le_right _ _
          have hbound := @Pays.length_le _ _ _ _ hrefill _ _ start _ _ hfirst hcapacity hfinish
          have hshorter : (finish - time attempt) * limits.refill ≤
              (finish - start) * limits.refill :=
            mul_le_mul_of_nonneg_right (by linarith) hrefill
          linarith
        · have hnone : within time accepted start finish (attempt :: rest) = [] := by
            unfold within
            rw [List.filter_eq_nil_iff]
            intro other hmem hin
            simp only [Bool.and_eq_true, decide_eq_true_eq] at hin
            have horder : time attempt ≤ time other := by
              rw [List.mem_cons] at hmem
              cases hmem with
              | inl hfirst => rw [hfirst]
              | inr hlater => exact hrest.since_le other hlater
            exact hfinish (horder.trans hin.2.2)
          rw [hnone]
          simp only [List.length_nil, Nat.cast_zero]
          linarith
      · have hskip : within time accepted start finish (attempt :: rest) =
            within time accepted start finish rest := by
          unfold within
          rw [List.filter_cons_of_neg]
          simp [hstart]
        rw [hskip]
        exact ih hrest

end TokenBucket
