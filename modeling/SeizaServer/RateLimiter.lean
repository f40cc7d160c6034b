import SeizaServer.EmailSendLimiter
import SeizaServer.TokenBucket

/-!
# The limiter of solves and uploads

Every identity is charged by the law of its own bucket.  The refill is lazy and
the sweep forgets full buckets, so the state says more than the levels do; the
decisions depend on the levels only.  Arithmetic is exact.
-/

namespace SeizaServer

open TokenBucket

/-- One entry of the map from identities to buckets. -/
structure RateBucket where
  identity : String
  tokens : ℚ
  updatedAt : ℚ
  deriving DecidableEq

abbrev RateBuckets := KeyedTable RateBucket String RateBucket.identity

structure RateLimiter where
  capacity : ℚ
  refillPerSecond : ℚ

namespace RateLimiter

def new (perMinute capacity : ℚ) : RateLimiter := ⟨capacity, perMinute / 60⟩

/-- `duration_since`, which saturates. -/
def durationSince (now earlier : ℚ) : ℚ := max 0 (now - earlier)

variable (limiter : RateLimiter)

/-- What a bucket holds now. -/
def refilled (bucket : RateBucket) (now : ℚ) : ℚ :=
  bucket.tokens + durationSince now bucket.updatedAt * limiter.refillPerSecond

/-- Drop the full buckets, before a new identity is inserted to a large map. -/
def sweep (buckets : RateBuckets) (identity : String) (now : ℚ) : RateBuckets :=
  if sweepThresholdBuckets ≤ buckets.rows.length ∧ (buckets.find? identity).isNone then
    buckets.filter fun bucket => limiter.refilled bucket now < limiter.capacity
  else buckets

/-- The bucket of an identity pays for one call. -/
def charge (buckets : RateBuckets) (identity : String) (now : ℚ) : Except ℕ Unit × RateBuckets :=
  let bucket := (buckets.find? identity).getD ⟨identity, limiter.capacity, now⟩
  let tokens := min (limiter.refilled bucket now) limiter.capacity
  if 1 ≤ tokens then (.ok (), buckets.put ⟨identity, tokens - 1, now⟩)
  else (.error (max ⌈(1 - tokens) / limiter.refillPerSecond⌉₊ 1),
    buckets.put ⟨identity, tokens, now⟩)

def check (buckets : RateBuckets) (identity : String) (now : ℚ) : Except ℕ Unit × RateBuckets :=
  let swept := limiter.sweep buckets identity now
  let bucket := (swept.find? identity).getD ⟨identity, limiter.capacity, now⟩
  let tokens := min (limiter.refilled bucket now) limiter.capacity
  if 1 ≤ tokens then (.ok (), swept.put ⟨identity, tokens - 1, now⟩)
  else (.error (max ⌈(1 - tokens) / limiter.refillPerSecond⌉₊ 1),
    swept.put ⟨identity, tokens, now⟩)

/-! ### What one check does -/

/-- The level of an identity: a new one has a full bucket. -/
def level (buckets : RateBuckets) (identity : String) (now : ℚ) : ℚ :=
  match buckets.find? identity with
  | none => limiter.capacity
  | some bucket => min (limiter.refilled bucket now) limiter.capacity

/-- Buckets are not overdrawn, and were charged before. -/
structure Sound (buckets : RateBuckets) (now : ℚ) : Prop where
  tokens : ∀ identity bucket, buckets.find? identity = some bucket → 0 ≤ bucket.tokens
  updatedAt : ∀ identity bucket, buckets.find? identity = some bucket → bucket.updatedAt ≤ now

def limits : Limits := ⟨limiter.capacity, limiter.refillPerSecond⟩

variable {limiter} {buckets : RateBuckets} {identity other : String} {since now : ℚ}

theorem sound_empty : Sound .empty now := ⟨nofun, nofun⟩

theorem Sound.later (hsound : Sound buckets since) (hnow : since ≤ now) : Sound buckets now :=
  ⟨hsound.tokens, fun identity bucket hfind => (hsound.updatedAt identity bucket hfind).trans hnow⟩

theorem level_nonneg (hcapacity : 0 ≤ limiter.capacity) (hrefill : 0 ≤ limiter.refillPerSecond)
    (hsound : Sound buckets now) : 0 ≤ limiter.level buckets identity now := by
  unfold level
  cases hfind : buckets.find? identity with
  | none => exact hcapacity
  | some bucket =>
      refine le_min ?_ hcapacity
      unfold refilled
      have hwait := mul_nonneg (le_max_left 0 (now - bucket.updatedAt)) hrefill
      have htokens := hsound.tokens identity bucket hfind
      unfold durationSince
      linarith

theorem level_le_capacity : limiter.level buckets identity now ≤ limiter.capacity := by
  unfold level
  cases buckets.find? identity with
  | none => exact le_rfl
  | some bucket => exact min_le_right _ _

/-- Between checks a level grows by the refill. -/
theorem level_later_eq (hsound : Sound buckets since) (hnow : since ≤ now)
    (hrefill : 0 ≤ limiter.refillPerSecond) :
    limiter.level buckets identity now =
      limiter.limits.later (limiter.level buckets identity since) (now - since) := by
  have hwait : 0 ≤ (now - since) * limiter.refillPerSecond :=
    mul_nonneg (sub_nonneg.mpr hnow) hrefill
  change _ = min (_ + (now - since) * limiter.refillPerSecond) limiter.capacity
  unfold level
  cases hfind : buckets.find? identity with
  | none =>
      dsimp only
      rw [min_eq_right (by linarith)]
  | some bucket =>
      have hupdated := hsound.updatedAt identity bucket hfind
      have hthen : durationSince since bucket.updatedAt = since - bucket.updatedAt :=
        max_eq_right (by linarith)
      have hlater : durationSince now bucket.updatedAt = now - bucket.updatedAt :=
        max_eq_right (by linarith)
      have hrefilled : limiter.refilled bucket since +
          (now - since) * limiter.refillPerSecond = limiter.refilled bucket now := by
        unfold refilled
        rw [hthen, hlater]
        ring
      dsimp only
      rw [min_add, min_assoc, min_eq_right (show limiter.capacity ≤
        limiter.capacity + (now - since) * limiter.refillPerSecond by linarith), hrefilled]

theorem level_later (hsound : Sound buckets since) (hnow : since ≤ now)
    (hrefill : 0 ≤ limiter.refillPerSecond) :
    limiter.level buckets identity now ≤
      limiter.limits.later (limiter.level buckets identity since) (now - since) :=
  (level_later_eq hsound hnow hrefill).le

/-- The tokens a charge finds are the level. -/
theorem charge_eq : limiter.charge buckets identity now =
    if 1 ≤ limiter.level buckets identity now then
      (.ok (), buckets.put ⟨identity, limiter.level buckets identity now - 1, now⟩)
    else (.error (max ⌈(1 - limiter.level buckets identity now) / limiter.refillPerSecond⌉₊ 1),
      buckets.put ⟨identity, limiter.level buckets identity now, now⟩) := by
  have htokens : min (limiter.refilled ((buckets.find? identity).getD
      ⟨identity, limiter.capacity, now⟩) now) limiter.capacity =
        limiter.level buckets identity now := by
    unfold level
    cases buckets.find? identity with
    | none =>
        rw [Option.getD_none]
        unfold refilled durationSince
        dsimp only
        rw [sub_self, max_self, zero_mul, add_zero, min_self]
    | some bucket => rfl
  unfold charge
  dsimp only
  rw [htokens]

/-- Whether a check accepts. -/
def accepts (limiter : RateLimiter) (buckets : RateBuckets) (identity : String) (now : ℚ) : Bool :=
  1 ≤ limiter.level buckets identity now

theorem charge_snd : (limiter.charge buckets identity now).2 =
    buckets.put ⟨identity, limiter.level buckets identity now -
      (if limiter.accepts buckets identity now then 1 else 0), now⟩ := by
  rw [charge_eq]
  unfold accepts
  split_ifs with hlevel hsame hsame
  · rfl
  · simp [hlevel] at hsame
  · simp [hlevel] at hsame
  · rw [sub_zero]

theorem sound_charge (hcapacity : 0 ≤ limiter.capacity) (hrefill : 0 ≤ limiter.refillPerSecond)
    (hsound : Sound buckets now) : Sound (limiter.charge buckets identity now).2 now := by
  have hpaid : 0 ≤ limiter.level buckets identity now -
      (if limiter.accepts buckets identity now then 1 else 0) := by
    split_ifs with haccepts
    · have hlevel : 1 ≤ limiter.level buckets identity now := of_decide_eq_true haccepts
      linarith
    · have hlevel := @level_nonneg limiter buckets identity now hcapacity hrefill hsound
      linarith
  rw [charge_snd]
  generalize limiter.level buckets identity now -
    (if limiter.accepts buckets identity now then 1 else 0) = left at hpaid ⊢
  constructor
  · intro other bucket hfind
    rw [KeyedTable.find?_put] at hfind
    split_ifs at hfind with hsame
    · cases hfind
      exact hpaid
    · exact hsound.tokens other bucket hfind
  · intro other bucket hfind
    rw [KeyedTable.find?_put] at hfind
    split_ifs at hfind with hsame
    · cases hfind
      exact le_rfl
    · exact hsound.updatedAt other bucket hfind

/-- A charge takes from its own identity only. -/
theorem level_charge :
    limiter.level (limiter.charge buckets identity now).2 other now =
      if identity = other then limiter.level buckets other now -
        (if limiter.accepts buckets other now then 1 else 0)
      else limiter.level buckets other now := by
  rw [charge_snd]
  by_cases hsame : identity = other
  · rw [if_pos hsame, ← hsame]
    have hle : limiter.level buckets identity now -
        (if limiter.accepts buckets identity now then 1 else 0) ≤ limiter.capacity := by
      have hlevel := @level_le_capacity limiter buckets identity now
      split_ifs
      · linarith
      · linarith
    generalize limiter.level buckets identity now -
      (if limiter.accepts buckets identity now then 1 else 0) = left at hle ⊢
    unfold level
    rw [KeyedTable.find?_put, if_pos rfl]
    unfold refilled durationSince
    dsimp only
    rw [sub_self, max_self, zero_mul, add_zero, min_eq_left hle]
  · rw [if_neg hsame]
    generalize limiter.level buckets identity now -
      (if limiter.accepts buckets identity now then 1 else 0) = left
    unfold level
    rw [KeyedTable.find?_put, if_neg hsame]

/-! ### A check is a charge after the sweep -/

theorem check_eq_charge : limiter.check buckets identity now =
    limiter.charge (limiter.sweep buckets identity now) identity now := rfl

/-- A bucket that a sweep drops was full. -/
theorem level_sweep : limiter.level (limiter.sweep buckets identity now) other now =
    limiter.level buckets other now := by
  unfold sweep
  split_ifs with hsweeps
  · unfold level
    rw [KeyedTable.find?_filter]
    cases hfind : buckets.find? other with
    | none => rfl
    | some bucket =>
        by_cases hless : limiter.refilled bucket now < limiter.capacity
        · simp [Option.filter, hless]
        · rw [Option.filter_some, if_neg (by simpa using hless)]
          exact (min_eq_right (not_lt.mp hless)).symm
  · rfl

theorem sound_sweep (hsound : Sound buckets now) :
    Sound (limiter.sweep buckets identity now) now := by
  have hkept : ∀ other bucket,
      (limiter.sweep buckets identity now).find? other = some bucket →
        buckets.find? other = some bucket := by
    intro other bucket hfind
    unfold sweep at hfind
    split_ifs at hfind
    · rw [KeyedTable.find?_filter, Option.filter_eq_some_iff] at hfind
      exact hfind.1
    · exact hfind
  exact ⟨fun other bucket hfind => hsound.tokens other bucket (hkept other bucket hfind),
    fun other bucket hfind => hsound.updatedAt other bucket (hkept other bucket hfind)⟩

theorem accepts_sweep :
    limiter.accepts (limiter.sweep buckets identity now) other now =
      limiter.accepts buckets other now := by
  unfold accepts
  rw [level_sweep]

theorem check_eq : limiter.check buckets identity now =
    if 1 ≤ limiter.level buckets identity now then
      (.ok (), (limiter.sweep buckets identity now).put
        ⟨identity, limiter.level buckets identity now - 1, now⟩)
    else (.error (max ⌈(1 - limiter.level buckets identity now) / limiter.refillPerSecond⌉₊ 1),
      (limiter.sweep buckets identity now).put
        ⟨identity, limiter.level buckets identity now, now⟩) := by
  rw [check_eq_charge, charge_eq, level_sweep]

theorem check_fst : (limiter.check buckets identity now).1 = .ok () ↔
    limiter.accepts buckets identity now = true := by
  rw [check_eq]
  unfold accepts
  split_ifs with hlevel
  · simp [hlevel]
  · simp [hlevel]

theorem sound_check (hcapacity : 0 ≤ limiter.capacity) (hrefill : 0 ≤ limiter.refillPerSecond)
    (hsound : Sound buckets now) : Sound (limiter.check buckets identity now).2 now :=
  sound_charge hcapacity hrefill (sound_sweep hsound)

/-- A check charges its own identity only. -/
theorem level_check :
    limiter.level (limiter.check buckets identity now).2 other now =
      if identity = other then limiter.level buckets other now -
        (if limiter.accepts buckets other now then 1 else 0)
      else limiter.level buckets other now := by
  rw [check_eq_charge, level_charge, level_sweep, accepts_sweep]

/-! ### A run of checks -/

/-- The decisions on attempts in order; those without an identity are refused
before the limiter. -/
def decisions (limiter : RateLimiter) {ε : Type*} (identity : ε → Option String) (time : ε → ℚ) :
    RateBuckets → List ε → List (ε × Bool)
  | _, [] => []
  | buckets, attempt :: rest =>
      match identity attempt with
      | none => (attempt, false) :: limiter.decisions identity time buckets rest
      | some id =>
          let checked := limiter.check buckets id (time attempt)
          (attempt, checked.1.isOk) :: limiter.decisions identity time checked.2 rest

/-- Attempts in order of time, from some time on. -/
def InOrder {ε : Type*} (time : ε → ℚ) : ℚ → List ε → Prop
  | _, [] => True
  | since, attempt :: rest => since ≤ time attempt ∧ InOrder time (time attempt) rest

theorem InOrder.since_le {ε : Type*} {time : ε → ℚ} {attempts : List ε}
    (horder : InOrder time since attempts) : ∀ attempt ∈ attempts, since ≤ time attempt := by
  induction attempts generalizing since with
  | nil =>
      intro attempt hmem
      cases hmem
  | cons first rest ih =>
      obtain ⟨hsince, hrest⟩ := horder
      intro attempt hmem
      rw [List.mem_cons] at hmem
      cases hmem with
      | inl hfirst =>
          rw [hfirst]
          exact hsince
      | inr hlater => exact hsince.trans (ih hrest attempt hlater)

/-- Each identity is charged by the law of its own bucket, whatever the others
do. -/
theorem pays_decisions {ε : Type*} {identity : ε → Option String} {time : ε → ℚ} {key : String}
    (hcapacity : 0 ≤ limiter.capacity) (hrefill : 0 ≤ limiter.refillPerSecond)
    {attempts : List ε} (hsound : Sound buckets since) (horder : InOrder time since attempts) :
    Pays limiter.limits (fun decided : ε × Bool => time decided.1) Prod.snd
      (limiter.level buckets key since) since
      ((limiter.decisions identity time buckets attempts).filter
        fun decided => identity decided.1 = some key) := by
  induction attempts generalizing buckets since with
  | nil => trivial
  | cons attempt rest ih =>
      obtain ⟨hsince, hrest⟩ := horder
      have hnow := hsound.later hsince
      have hlater := @level_later limiter buckets key since (time attempt) hsound hsince hrefill
      unfold decisions
      cases hidentity : identity attempt with
      | none =>
          dsimp only
          rw [List.filter_cons_of_neg (by simp [hidentity])]
          exact (ih hnow hrest).earlier hsince hlater
      | some id =>
          have hafter := @sound_check limiter buckets id (time attempt) hcapacity hrefill hnow
          have hlevel := @level_check limiter buckets id key (time attempt)
          have hnext := ih hafter hrest
          dsimp only
          by_cases hsame : id = key
          · rw [List.filter_cons_of_pos (by simp [hidentity, hsame])]
            rw [if_pos hsame] at hlevel
            refine ⟨hsince, _, level_nonneg hcapacity hrefill hafter, ?_, hnext⟩
            have hpaid : (limiter.check buckets id (time attempt)).1.isOk =
                limiter.accepts buckets key (time attempt) := by
              rw [← hsame, check_eq]
              unfold accepts
              split_ifs with henough
              · simp [henough, Except.isOk, Except.toBool]
              · simp [henough, Except.isOk, Except.toBool]
            rw [hlevel, hpaid]
            linarith
          · rw [List.filter_cons_of_neg (by simp [hidentity, hsame])]
            rw [if_neg hsame] at hlevel
            rw [hlevel] at hnext
            exact hnext.earlier hsince hlater

/-! ### Calls and their outcomes -/

structure RateCall where
  identity : String
  time : ℚ
  deriving DecidableEq

/-- What a limiter answers to calls in order. -/
def outcomes (limiter : RateLimiter) :
    RateBuckets → List RateCall → List (RateCall × Except ℕ Unit)
  | _, [] => []
  | buckets, call :: rest =>
      let checked := limiter.check buckets call.identity call.time
      (call, checked.1) :: limiter.outcomes checked.2 rest

/-- The answers of a limiter that never sweeps. -/
def outcomesUnswept (limiter : RateLimiter) :
    RateBuckets → List RateCall → List (RateCall × Except ℕ Unit)
  | _, [] => []
  | buckets, call :: rest =>
      let charged := limiter.charge buckets call.identity call.time
      (call, charged.1) :: limiter.outcomesUnswept charged.2 rest

def bucketsAfter (limiter : RateLimiter) : RateBuckets → List RateCall → RateBuckets
  | buckets, [] => buckets
  | buckets, call :: rest =>
      limiter.bucketsAfter (limiter.check buckets call.identity call.time).2 rest

/-- The accepted calls of an identity in a closed interval. -/
def acceptedBetween (limiter : RateLimiter) (calls : List RateCall) (identity : String)
    (start finish : ℚ) : List (RateCall × Except ℕ Unit) :=
  (limiter.outcomes .empty calls).filter fun answered =>
    answered.1.identity = identity && (answered.2.isOk &&
      (decide (start ≤ answered.1.time) && decide (answered.1.time ≤ finish)))

theorem decisions_eq (calls : List RateCall) :
    limiter.decisions (fun call => some call.identity) RateCall.time buckets calls =
      (limiter.outcomes buckets calls).map fun answered => (answered.1, answered.2.isOk) := by
  induction calls generalizing buckets with
  | nil => rfl
  | cons call rest ih =>
      unfold decisions outcomes
      rw [List.map_cons, ← ih]

/-! ### Decisions depend on levels -/

/-- Two maps of buckets that hold the same tokens for every identity. -/
structure Agree (limiter : RateLimiter) (now : ℚ) (first second : RateBuckets) : Prop where
  left : Sound first now
  right : Sound second now
  levels : ∀ identity, limiter.level first identity now = limiter.level second identity now

variable {first second third : RateBuckets}

theorem Agree.trans (hfirst : limiter.Agree now first second)
    (hsecond : limiter.Agree now second third) : limiter.Agree now first third :=
  ⟨hfirst.left, hsecond.right, fun identity =>
    (hfirst.levels identity).trans (hsecond.levels identity)⟩

theorem Agree.later (hrefill : 0 ≤ limiter.refillPerSecond)
    (hagree : limiter.Agree since first second) (hnow : since ≤ now) :
    limiter.Agree now first second := by
  refine ⟨hagree.left.later hnow, hagree.right.later hnow, ?_⟩
  intro identity
  rw [level_later_eq hagree.left hnow hrefill, level_later_eq hagree.right hnow hrefill,
    hagree.levels]

theorem agree_sweep (hsound : Sound buckets now) :
    limiter.Agree now (limiter.sweep buckets identity now) buckets :=
  ⟨sound_sweep hsound, hsound, fun _ => level_sweep⟩

theorem Agree.charge_fst (hagree : limiter.Agree now first second) :
    (limiter.charge first identity now).1 = (limiter.charge second identity now).1 := by
  rw [charge_eq, charge_eq, hagree.levels]
  split_ifs
  · rfl
  · rfl

theorem Agree.charge (hcapacity : 0 ≤ limiter.capacity) (hrefill : 0 ≤ limiter.refillPerSecond)
    (hagree : limiter.Agree now first second) :
    limiter.Agree now (limiter.charge first identity now).2
      (limiter.charge second identity now).2 := by
  refine ⟨sound_charge hcapacity hrefill hagree.left,
    sound_charge hcapacity hrefill hagree.right, ?_⟩
  intro other
  have haccepts : limiter.accepts first other now = limiter.accepts second other now := by
    unfold accepts
    rw [hagree.levels]
  rw [level_charge, level_charge, haccepts, hagree.levels]

theorem Agree.sweep (hagree : limiter.Agree now first second) :
    limiter.Agree now (limiter.sweep first identity now) second :=
  (agree_sweep hagree.left).trans hagree

theorem Agree.symm (hagree : limiter.Agree now first second) :
    limiter.Agree now second first :=
  ⟨hagree.right, hagree.left, fun identity => (hagree.levels identity).symm⟩

theorem outcomes_eq_unswept (hcapacity : 0 ≤ limiter.capacity)
    (hrefill : 0 ≤ limiter.refillPerSecond) {calls : List RateCall}
    (hagree : limiter.Agree since first second) (horder : InOrder RateCall.time since calls) :
    limiter.outcomes first calls = limiter.outcomesUnswept second calls := by
  induction calls generalizing first second since with
  | nil => rfl
  | cons call rest ih =>
      obtain ⟨hsince, hrest⟩ := horder
      have hswept := @Agree.sweep limiter call.identity call.time first second
        (hagree.later hrefill hsince)
      unfold outcomes outcomesUnswept
      dsimp only
      rw [check_eq_charge, hswept.charge_fst, ih (hswept.charge hcapacity hrefill) hrest]

theorem Agree.outcomes (hcapacity : 0 ≤ limiter.capacity)
    (hrefill : 0 ≤ limiter.refillPerSecond) {calls : List RateCall}
    (hagree : limiter.Agree since first second) (horder : InOrder RateCall.time since calls) :
    limiter.outcomes first calls = limiter.outcomes second calls := by
  have hself := hagree.symm.trans hagree
  rw [outcomes_eq_unswept hcapacity hrefill hagree horder,
    outcomes_eq_unswept hcapacity hrefill hself horder]

/-! ### Rejected calls -/

theorem accepts_of_error {wait : ℕ}
    (herror : (limiter.check buckets identity now).1 = .error wait) :
    limiter.accepts buckets identity now = false := by
  rw [Bool.eq_false_iff]
  intro haccepts
  rw [check_fst.mpr haccepts] at herror
  cases herror

theorem wait_of_error {wait : ℕ}
    (herror : (limiter.check buckets identity now).1 = .error wait) :
    wait = max ⌈(1 - limiter.level buckets identity now) / limiter.refillPerSecond⌉₊ 1 := by
  have hless := accepts_of_error herror
  unfold accepts at hless
  rw [check_eq, if_neg (of_decide_eq_false hless)] at herror
  injection herror with hwait
  exact hwait.symm

theorem agree_of_error (hcapacity : 0 ≤ limiter.capacity)
    (hrefill : 0 ≤ limiter.refillPerSecond) (hsound : Sound buckets now) {wait : ℕ}
    (herror : (limiter.check buckets identity now).1 = .error wait) :
    limiter.Agree now (limiter.check buckets identity now).2 buckets := by
  refine ⟨sound_check hcapacity hrefill hsound, hsound, ?_⟩
  intro other
  rw [level_check]
  split_ifs with hsame haccepts
  · rw [← hsame, accepts_of_error herror] at haccepts
    cases haccepts
  · rw [sub_zero]
  · rfl

/-- The call can be deleted from the run. -/
theorem outcomes_of_error (hcapacity : 0 ≤ limiter.capacity)
    (hrefill : 0 ≤ limiter.refillPerSecond) {before later : List RateCall} {call : RateCall}
    {wait : ℕ} (hsound : Sound buckets since)
    (horder : InOrder RateCall.time since (before ++ call :: later))
    (herror : (limiter.check (limiter.bucketsAfter buckets before) call.identity call.time).1 =
      .error wait) :
    limiter.outcomes buckets (before ++ call :: later) =
      limiter.outcomes buckets before ++ (call, .error wait) ::
        limiter.outcomes (limiter.bucketsAfter buckets before) later := by
  induction before generalizing buckets since with
  | nil =>
      obtain ⟨hsince, hrest⟩ := horder
      have hagree := agree_of_error hcapacity hrefill (hsound.later hsince) herror
      change (limiter.check buckets call.identity call.time).1 = .error wait at herror
      change (call, (limiter.check buckets call.identity call.time).1) ::
        limiter.outcomes (limiter.check buckets call.identity call.time).2 later = _
      rw [herror, hagree.outcomes hcapacity hrefill hrest]
      rfl
  | cons earlier rest ih =>
      obtain ⟨hsince, hrest⟩ := horder
      have hnow := @sound_check limiter buckets earlier.identity earlier.time hcapacity hrefill
        (hsound.later hsince)
      exact congrArg (_ :: ·) (ih hnow hrest herror)

theorem outcomes_append (before later : List RateCall) :
    limiter.outcomes buckets (before ++ later) = limiter.outcomes buckets before ++
      limiter.outcomes (limiter.bucketsAfter buckets before) later := by
  induction before generalizing buckets with
  | nil => rfl
  | cons call rest ih => exact congrArg (_ :: ·) ih

/-! ### After the wait -/

/-- Without an accepted call of its own, a level only grows. -/
theorem level_bucketsAfter (hcapacity : 0 ≤ limiter.capacity)
    (hrefill : 0 ≤ limiter.refillPerSecond) {between : List RateCall} {retry : RateCall}
    (hsound : Sound buckets since)
    (horder : InOrder RateCall.time since (between ++ [retry]))
    (hnone : ∀ answered ∈ limiter.outcomes buckets between,
      answered.1.identity = retry.identity → answered.2 ≠ .ok ()) :
    limiter.level (limiter.bucketsAfter buckets between) retry.identity retry.time =
      limiter.limits.later (limiter.level buckets retry.identity since) (retry.time - since) := by
  induction between generalizing buckets since with
  | nil => exact level_later_eq hsound horder.1 hrefill
  | cons call rest ih =>
      obtain ⟨hsince, hrest⟩ := horder
      have hnow := hsound.later hsince
      have hlast := hrest.since_le retry (List.mem_append_right rest List.mem_cons_self)
      have hkept : limiter.level (limiter.check buckets call.identity call.time).2
          retry.identity call.time = limiter.level buckets retry.identity call.time := by
        rw [level_check]
        split_ifs with hsame haccepts
        · have hrejected := hnone _ List.mem_cons_self hsame
          exact absurd (check_fst.mpr (by rw [hsame]; exact haccepts)) hrejected
        · rw [sub_zero]
        · rfl
      have hafter := ih (sound_check hcapacity hrefill hnow) hrest
        fun answered hmem => hnone answered (List.mem_cons_of_mem _ hmem)
      change limiter.level (limiter.bucketsAfter _ rest) _ _ = _
      rw [hafter, hkept, level_later_eq hsound hsince hrefill,
        Limits.later_later (mul_nonneg (sub_nonneg.mpr hlast) hrefill)]
      ring_nf

theorem accepts_after_wait (hcapacity : 1 ≤ limiter.capacity)
    (hrefill : 0 < limiter.refillPerSecond) {before between : List RateCall}
    {call retry : RateCall} {wait : ℕ} (hsound : Sound buckets since)
    (horder : InOrder RateCall.time since (before ++ call :: (between ++ [retry])))
    (hidentity : retry.identity = call.identity) (htime : retry.time = call.time + wait)
    (herror : (limiter.check (limiter.bucketsAfter buckets before) call.identity call.time).1 =
      .error wait)
    (hnone : ∀ answered ∈ limiter.outcomes
        (limiter.bucketsAfter buckets (before ++ [call])) between,
      answered.1.identity = call.identity → answered.2 ≠ .ok ()) :
    (limiter.check (limiter.bucketsAfter buckets (before ++ call :: between))
      retry.identity retry.time).1 = .ok () := by
  have hzero : 0 ≤ limiter.capacity := zero_le_one.trans hcapacity
  induction before generalizing buckets since with
  | nil =>
      obtain ⟨hsince, hrest⟩ := horder
      have hnow := hsound.later hsince
      have hlevel := level_bucketsAfter hzero hrefill.le
        (@sound_check limiter buckets call.identity call.time hzero hrefill.le hnow) hrest
        (by rw [hidentity]; exact hnone)
      have hagree := agree_of_error hzero hrefill.le hnow herror
      rw [hagree.levels, htime, hidentity, add_sub_cancel_left] at hlevel
      rw [check_fst, accepts, decide_eq_true_eq]
      change 1 ≤ limiter.level (limiter.bucketsAfter _ between) _ _
      rw [hidentity, htime, hlevel]
      refine le_min ?_ hcapacity
      have hceil : (1 - limiter.level buckets call.identity call.time) /
          limiter.refillPerSecond ≤ wait := by
        rw [wait_of_error herror]
        exact (Nat.le_ceil _).trans (Nat.cast_le.mpr (le_max_left _ _))
      have hrefilled := (div_le_iff₀ hrefill).mp hceil
      change 1 ≤ _ + (wait : ℚ) * limiter.refillPerSecond
      linarith
  | cons earlier rest ih =>
      obtain ⟨hsince, hrest⟩ := horder
      have hnow := @sound_check limiter buckets earlier.identity earlier.time hzero hrefill.le
        (hsound.later hsince)
      exact ih hnow hrest herror hnone

/-- A wait is positive and fits in 64 bits. -/
theorem wait_lt (hfits : 1 / limiter.refillPerSecond ≤ 2 ^ 64 - 1)
    (hcapacity : 0 ≤ limiter.capacity) (hrefill : 0 < limiter.refillPerSecond)
    (hsound : Sound buckets now) {wait : ℕ}
    (herror : (limiter.check buckets identity now).1 = .error wait) :
    1 ≤ wait ∧ wait < 2 ^ 64 := by
  have hlevel := @level_nonneg limiter buckets identity now hcapacity hrefill.le hsound
  have hshare : (1 - limiter.level buckets identity now) / limiter.refillPerSecond ≤
      ((2 ^ 64 - 1 : ℕ) : ℚ) := by
    calc
      (1 - limiter.level buckets identity now) / limiter.refillPerSecond ≤
          1 / limiter.refillPerSecond := div_le_div_of_nonneg_right (by linarith) hrefill.le
      _ ≤ 2 ^ 64 - 1 := hfits
      _ = ((2 ^ 64 - 1 : ℕ) : ℚ) := by norm_num
  have hceil := Nat.ceil_le.mpr hshare
  rw [wait_of_error herror]
  omega

theorem wait_lt_of_mem (hfits : 1 / limiter.refillPerSecond ≤ 2 ^ 64 - 1)
    (hcapacity : 0 ≤ limiter.capacity) (hrefill : 0 < limiter.refillPerSecond)
    {calls : List RateCall} (hsound : Sound buckets since)
    (horder : InOrder RateCall.time since calls) {answered : RateCall × Except ℕ Unit} {wait : ℕ}
    (hmem : answered ∈ limiter.outcomes buckets calls) (herror : answered.2 = .error wait) :
    1 ≤ wait ∧ wait < 2 ^ 64 := by
  induction calls generalizing buckets since with
  | nil => cases hmem
  | cons call rest ih =>
      obtain ⟨hsince, hrest⟩ := horder
      have hnow := hsound.later hsince
      unfold outcomes at hmem
      rw [List.mem_cons] at hmem
      cases hmem with
      | inl hfirst =>
          rw [hfirst] at herror
          exact wait_lt hfits hcapacity hrefill hnow herror
      | inr hlater => exact ih (sound_check hcapacity hrefill.le hnow) hrest hlater

/-! ### The law -/

theorem length_acceptedBetween_le (hcapacity : 0 ≤ limiter.capacity)
    (hrefill : 0 ≤ limiter.refillPerSecond) {calls : List RateCall}
    (horder : InOrder RateCall.time since calls) {start finish : ℚ} (hinterval : start ≤ finish) :
    ((limiter.acceptedBetween calls identity start finish).length : ℚ) ≤
      limiter.capacity + limiter.refillPerSecond * (finish - start) := by
  have hpays := @pays_decisions limiter .empty since _ (fun call => some call.identity)
    RateCall.time identity hcapacity hrefill calls sound_empty horder
  have hwithin := hpays.length_window_le hrefill hcapacity hinterval
  have hsame : (within (fun decided : RateCall × Bool => decided.1.time) Prod.snd start finish
      ((limiter.decisions (fun call => some call.identity) RateCall.time .empty calls).filter
        fun decided => some decided.1.identity = some identity)).length =
      (limiter.acceptedBetween calls identity start finish).length := by
    unfold within acceptedBetween
    rw [decisions_eq, List.filter_map, List.filter_map, List.length_map, List.filter_filter]
    congr 2
    funext answered
    simp [Bool.and_comm]
  rw [hsame] at hwithin
  calc
    _ ≤ limiter.capacity + (finish - start) * limiter.refillPerSecond := hwithin
    _ = limiter.capacity + limiter.refillPerSecond * (finish - start) := by ring

/-- The law of the limiter, over every run of calls in order of time. -/
theorem token_bucket_law (limiter : RateLimiter) (hcapacity : 1 ≤ limiter.capacity)
    (hrefill : 0 < limiter.refillPerSecond)
    (hfits : 1 / limiter.refillPerSecond ≤ 2 ^ 64 - 1) (began : ℚ) (calls : List RateCall)
    (horder : InOrder RateCall.time began calls) :
    (∀ identity start finish, start ≤ finish →
      ((limiter.acceptedBetween calls identity start finish).length : ℚ) ≤
        limiter.capacity + limiter.refillPerSecond * (finish - start)) ∧
    limiter.outcomes .empty calls = limiter.outcomesUnswept .empty calls ∧
    (∀ (before : List RateCall) (call : RateCall) (later : List RateCall) (wait : ℕ),
      calls = before ++ call :: later →
      (limiter.check (limiter.bucketsAfter .empty before) call.identity call.time).1 =
        .error wait →
      ∃ answered, limiter.outcomes .empty calls =
          limiter.outcomes .empty before ++ (call, .error wait) :: answered ∧
        limiter.outcomes .empty (before ++ later) =
          limiter.outcomes .empty before ++ answered) ∧
    (∀ (before : List RateCall) (call : RateCall) (between : List RateCall) (retry : RateCall)
        (wait : ℕ),
      calls = before ++ call :: (between ++ [retry]) →
      retry.identity = call.identity → retry.time = call.time + wait →
      (limiter.check (limiter.bucketsAfter .empty before) call.identity call.time).1 =
        .error wait →
      (∀ answered ∈ limiter.outcomes (limiter.bucketsAfter .empty (before ++ [call])) between,
        answered.1.identity = call.identity → answered.2 ≠ .ok ()) →
      (limiter.check (limiter.bucketsAfter .empty (before ++ call :: between))
        retry.identity retry.time).1 = .ok ()) ∧
    ∀ answered ∈ limiter.outcomes .empty calls, ∀ wait,
      answered.2 = .error wait → 1 ≤ wait ∧ wait < 2 ^ 64 := by
  have hzero : 0 ≤ limiter.capacity := zero_le_one.trans hcapacity
  refine ⟨?_, ?_, ?_, ?_, ?_⟩
  · intro identity start finish hinterval
    exact length_acceptedBetween_le hzero hrefill.le horder hinterval
  · exact outcomes_eq_unswept hzero hrefill.le ⟨sound_empty, sound_empty, fun _ => rfl⟩ horder
  · intro before call later wait hcalls herror
    rw [hcalls] at horder ⊢
    exact ⟨_, outcomes_of_error hzero hrefill.le sound_empty horder herror,
      outcomes_append before later⟩
  · intro before call between retry wait hcalls hidentity htime herror hnone
    rw [hcalls] at horder
    exact accepts_after_wait hcapacity hrefill sound_empty horder hidentity htime herror hnone
  · intro answered hmem wait herror
    exact wait_lt_of_mem hfits hzero hrefill sound_empty horder hmem herror

/-- Two calls of one instant, and the second again a second later. -/
theorem token_bucket_law_retry :
    let limiter := RateLimiter.new 60 1
    let call : RateCall := ⟨"client", 0⟩
    (limiter.check (limiter.bucketsAfter .empty [call, call]) "client" 1).1 = .ok () := by
  intro limiter call
  let retry : RateCall := ⟨"client", 1⟩
  have hrate : limiter.refillPerSecond = 1 := by norm_num [limiter, RateLimiter.new]
  have hlaw := token_bucket_law limiter le_rfl (by rw [hrate]; exact one_pos)
    (by rw [hrate]; norm_num) 0 [call, call, retry]
    ⟨le_rfl, le_rfl, zero_le_one, trivial⟩
  refine hlaw.2.2.2.1 [call] call [] retry 1 rfl rfl (by norm_num [call, retry]) ?_ nofun
  decide +kernel

end RateLimiter

end SeizaServer
