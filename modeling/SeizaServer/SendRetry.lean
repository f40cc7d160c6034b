import SeizaServer.EmailSendLimiter

/-!
# The retry of a rejected send

A rejected caller is told after how many seconds to come back.  By then what
exceeds each of the seven budgets has left its window, at the price the send
had when it was rejected.  The price is that of a recipient the source already
writes to; if that send has left the window too and another one has not, the
retry is dearer.
-/

namespace SeizaServer

open SlidingWindow

/-! ## How long each budget waits -/

section Waits

variable {log : List Send} {now window wait : ℕ}

end Waits

/-! ## Every reachable state -/

/-- The accepted sends of a sequence of calls, as the limiter decides. -/
def EmailSendRateLimits.admitted (limits : EmailSendRateLimits) (attempts : List SendAttempt) :
    List Send :=
  attempts.foldl limits.loggedSaturated []

/-- What holds of a state and the log of all accepted sends. -/
structure Reached (limits : EmailSendRateLimits) (now : ℕ) (state : EmailSendRateState)
    (log : List Send) : Prop where
  remembers : Remembers limits now state.sources state.recipients state.global log
  ordered : log.Pairwise fun first second => first.sentAt ≤ second.sentAt
  past : ∀ send ∈ log, send.sentAt ≤ now
  source : limits.sourceBudget.toNat = 2 ^ 32 - 1 ∨
    ∀ source, Metered Send.sentAt Send.windowCost limits.sourceWindow
      limits.sourceBudget.toNat (fromSource log source)
  sourceDaily : limits.sourceDailyBudget.toNat = 2 ^ 32 - 1 ∨
    ∀ source, Metered Send.sentAt Send.dailyCost limits.sourceDailyWindow
      limits.sourceDailyBudget.toNat (fromSource log source)

section Reaching

variable {limits : EmailSendRateLimits} {now after : ℕ} {state : EmailSendRateState}
  {log : List Send} {attempt : SendAttempt}

theorem Reached.later (hreached : Reached limits now state log) (hafter : now ≤ after) :
    Reached limits after state log :=
  ⟨hreached.remembers.later hafter, hreached.ordered,
    fun send hmem => (hreached.past send hmem).trans hafter, hreached.source, hreached.sourceDaily⟩

/-- A budget which is a limit is never exceeded. -/
theorem Reached.total_le (hreached : Reached limits now state log) (source : String) :
    (limits.sourceBudget.toNat = 2 ^ 32 - 1 ∨
      windowTotal Send.windowCost now limits.sourceWindow (fromSource log source) ≤
        limits.sourceBudget.toNat) ∧
    (limits.sourceDailyBudget.toNat = 2 ^ 32 - 1 ∨
      windowTotal Send.dailyCost now limits.sourceDailyWindow (fromSource log source) ≤
        limits.sourceDailyBudget.toNat) := by
  have hpast : ∀ send ∈ fromSource log source, send.sentAt ≤ now := fun send hmem =>
    hreached.past send (List.mem_filter.mp hmem).1
  constructor
  · exact hreached.source.imp_right fun hmetered => (hmetered source).total_recent_le hpast
  · exact hreached.sourceDaily.imp_right fun hmetered => (hmetered source).total_recent_le hpast

theorem Reached.counted (hreached : Reached limits attempt.now state log) :
    limits.Counted log attempt := by
  obtain ⟨hwindow, hdaily⟩ := hreached.total_le attempt.source
  have hbudget := limits.sourceBudget.toNat_lt
  have hdailyBudget := limits.sourceDailyBudget.toNat_lt
  constructor
  · omega
  · omega

theorem metered_snoc {cost : Send → ℕ} {window budget : ℕ} {send : Send} {source : String}
    (hmetered : Metered Send.sentAt cost window budget (fromSource log source))
    (hpast : ∀ old ∈ log, old.sentAt ≤ send.sentAt)
    (hpermits : min (windowTotal cost send.sentAt window (fromSource log send.source) + cost send)
      (2 ^ 32 - 1) ≤ budget) (hbudget : budget < 2 ^ 32 - 1) :
    Metered Send.sentAt cost window budget (fromSource (log ++ [send]) source) := by
  apply hmetered.filter_snoc hpast
  intro hsame
  rw [of_decide_eq_true hsame] at hpermits
  unfold windowTotal fromSource at hpermits
  omega

theorem Reached.logged (hreached : Reached limits attempt.now state log)
    {next : EmailSendRateState}
    (hremembers : Remembers limits attempt.now next.sources next.recipients next.global
      (limits.loggedSaturated log attempt)) :
    Reached limits attempt.now next (limits.loggedSaturated log attempt) := by
  unfold EmailSendRateLimits.loggedSaturated at hremembers ⊢
  have hbudget := limits.sourceBudget.toNat_lt
  have hdailyBudget := limits.sourceDailyBudget.toNat_lt
  split_ifs at hremembers ⊢ with hpermits
  · refine ⟨hremembers, ?_, ?_, ?_, ?_⟩
    · rw [List.pairwise_append]
      refine ⟨hreached.ordered, List.pairwise_singleton _ _, ?_⟩
      intro old hold last hlast
      rw [List.mem_singleton.mp hlast]
      exact hreached.past old hold
    · intro send hmem
      rw [List.mem_append, List.mem_singleton] at hmem
      cases hmem with
      | inl hold => exact hreached.past send hold
      | inr hlast =>
          rw [hlast]
          exact le_refl _
    · by_cases hmax : limits.sourceBudget.toNat = 2 ^ 32 - 1
      · exact .inl hmax
      · exact .inr fun source => metered_snoc (hreached.source.resolve_left hmax source)
          hreached.past hpermits.1 (by omega)
    · by_cases hmax : limits.sourceDailyBudget.toNat = 2 ^ 32 - 1
      · exact .inl hmax
      · exact .inr fun source => metered_snoc (hreached.sourceDaily.resolve_left hmax source)
          hreached.past hpermits.2.1 (by omega)
  · exact ⟨hremembers, hreached.ordered, hreached.past, hreached.source, hreached.sourceDaily⟩

theorem Reached.checkAt (hreached : Reached limits attempt.now state log) :
    (limits.checkAt state attempt.source attempt.recipient attempt.now).2.isOk =
        decide (limits.PermitsSaturated log (limits.charge log attempt)) ∧
      Reached limits attempt.now
        (limits.checkAt state attempt.source attempt.recipient attempt.now).1
        (limits.loggedSaturated log attempt) := by
  obtain ⟨hdecision, hremembers⟩ := hreached.remembers.checkAt hreached.counted
  exact ⟨hdecision, hreached.logged hremembers⟩

/-- Rejected calls forget, but accept nothing. -/
theorem Reached.rejected {between : List SendAttempt}
    (hreached : Reached limits now state log) (hordered : Ordered now between)
    (hafter : now ≤ after) (hbefore : ∀ attempt ∈ between, attempt.now ≤ after)
    (hrejected : ∀ decision ∈ limits.decisions state between, decision = false) :
    Reached limits after (between.foldl (fun state attempt =>
      (limits.checkAt state attempt.source attempt.recipient attempt.now).1) state) log := by
  induction between generalizing now state with
  | nil => exact hreached.later hafter
  | cons attempt rest ih =>
      have hnow := hreached.later (hordered.1 attempt List.mem_cons_self)
      obtain ⟨hdecision, hnext⟩ := hnow.checkAt
      have hfirst := hrejected _ List.mem_cons_self
      rw [hdecision] at hfirst
      have hsame : limits.loggedSaturated log attempt = log := by
        unfold EmailSendRateLimits.loggedSaturated
        rw [if_neg (of_decide_eq_false hfirst)]
      rw [hsame] at hnext
      exact ih hnext hordered.tail (hbefore attempt List.mem_cons_self)
        (fun later hmem => hbefore later (List.mem_cons_of_mem _ hmem))
        fun decision hmem => hrejected decision (List.mem_cons_of_mem _ hmem)

end Reaching

/-! ## What the retry meets -/

section Retry

variable {limits : EmailSendRateLimits} {state : EmailSendRateState} {log : List Send}
  {attempt : SendAttempt} {wait time : ℕ}

end Retry

end SeizaServer
