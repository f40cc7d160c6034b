import Mathlib.Data.List.TakeWhile
import Mathlib.Tactic

/-!
# Sliding windows over a log of events

Events carry a time stamp and a cost.  A limiter may forget events from the
front of its log once they are older than every window it looks at; the first
part shows that it still sees the same recent events.  A log each of whose
events fitted into its window when it was appended never exceeds its budget in
any window of that length; this is the second part.
-/

namespace SlidingWindow

variable {ε : Type} {stamp : ε → ℕ} {now after window retention : ℕ}
  {kept log : List ε}

/-- The events less than one window old. -/
def recent (stamp : ε → ℕ) (now window : ℕ) (events : List ε) : List ε :=
  events.filter fun event => now - stamp event < window

/-- Drop events from the front for as long as they are out of the window. -/
def prune (stamp : ε → ℕ) (now window : ℕ) (events : List ε) : List ε :=
  events.dropWhile fun event => window ≤ now - stamp event

theorem recent_append (first second : List ε) :
    recent stamp now window (first ++ second) =
      recent stamp now window first ++ recent stamp now window second := by
  unfold recent
  exact List.filter_append first second

theorem recent_map {α : Type} (f : α → ε) (events : List α) :
    recent stamp now window (events.map f) =
      (recent (fun event => stamp (f event)) now window events).map f := by
  unfold recent
  rw [List.filter_map]
  rfl

/-! ## Forgetting -/

/-- What is kept of a log: an initial part is gone, all of it out of the
window. -/
def Forgets (stamp : ε → ℕ) (now retention : ℕ) (kept log : List ε) : Prop :=
  ∃ dropped, log = dropped ++ kept ∧ ∀ event ∈ dropped, retention ≤ now - stamp event

theorem Forgets.refl (log : List ε) : Forgets stamp now retention log log :=
  ⟨[], rfl, by simp⟩

theorem recent_of_forgets (hforgets : Forgets stamp now retention kept log)
    (hwindow : window ≤ retention) :
    recent stamp now window kept = recent stamp now window log := by
  obtain ⟨dropped, hlog, hold⟩ := hforgets
  have hgone : recent stamp now window dropped = [] := by
    unfold recent
    rw [List.filter_eq_nil_iff]
    intro event hmem
    have hage := hold event hmem
    simp only [decide_eq_true_eq]
    omega
  rw [hlog, recent_append, hgone, List.nil_append]

theorem Forgets.prune (hforgets : Forgets stamp now retention kept log) :
    Forgets stamp now retention (prune stamp now retention kept) log := by
  obtain ⟨dropped, hlog, hold⟩ := hforgets
  have hsplit := List.takeWhile_append_dropWhile
    (p := fun event => decide (retention ≤ now - stamp event)) (l := kept)
  refine ⟨dropped ++ kept.takeWhile fun event => retention ≤ now - stamp event, ?_, ?_⟩
  · rw [List.append_assoc, SlidingWindow.prune, hsplit]
    exact hlog
  · intro event hmem
    rw [List.mem_append] at hmem
    cases hmem with
    | inl hdropped => exact hold event hdropped
    | inr htaken => simpa using List.mem_takeWhile_imp htaken

theorem Forgets.later (hforgets : Forgets stamp now retention kept log) (hafter : now ≤ after) :
    Forgets stamp after retention kept log := by
  obtain ⟨dropped, hlog, hold⟩ := hforgets
  refine ⟨dropped, hlog, ?_⟩
  intro event hmem
  have hage := hold event hmem
  omega

theorem Forgets.snoc (hforgets : Forgets stamp now retention kept log) (event : ε) :
    Forgets stamp now retention (kept ++ [event]) (log ++ [event]) := by
  obtain ⟨dropped, hlog, hold⟩ := hforgets
  exact ⟨dropped, by rw [hlog, List.append_assoc], hold⟩

/-! ## Budgets -/

/-- The events of the half-open window that begins at `start`. -/
def between (stamp : ε → ℕ) (start window : ℕ) (events : List ε) : List ε :=
  events.filter fun event => start ≤ stamp event ∧ stamp event < start + window

def total (cost : ε → ℕ) (events : List ε) : ℕ := (events.map cost).sum

theorem total_append (cost : ε → ℕ) (first second : List ε) :
    total cost (first ++ second) = total cost first + total cost second := by
  unfold total
  rw [List.map_append, List.sum_append]

theorem total_le_of_sublist {cost : ε → ℕ} {first second : List ε}
    (hsublist : first.Sublist second) : total cost first ≤ total cost second := by
  unfold total
  exact (hsublist.map cost).sum_le_sum (by simp)

/-! ## Leaving the window -/

/-- Every event was appended in the order of time, when its cost still fitted
into the budget of the window that ends with it. -/
inductive Metered (stamp cost : ε → ℕ) (window budget : ℕ) : List ε → Prop where
  | nil : Metered stamp cost window budget []
  | snoc (log : List ε) (event : ε) (hlog : Metered stamp cost window budget log)
      (horder : ∀ old ∈ log, stamp old ≤ stamp event)
      (hfits : total cost (recent stamp (stamp event) window log) + cost event ≤ budget) :
      Metered stamp cost window budget (log ++ [event])

variable {cost : ε → ℕ} {budget : ℕ}

theorem Metered.filter_snoc {p : ε → Bool}
    (hmetered : Metered stamp cost window budget (log.filter p)) {event : ε}
    (horder : ∀ old ∈ log, stamp old ≤ stamp event)
    (hfits : p event = true →
      total cost (recent stamp (stamp event) window (log.filter p)) + cost event ≤ budget) :
    Metered stamp cost window budget ((log ++ [event]).filter p) := by
  rw [List.filter_append]
  by_cases hevent : p event = true
  · have hlast : [event].filter p = [event] := by simp [hevent]
    rw [hlast]
    apply Metered.snoc
    · exact hmetered
    · intro old hmem
      exact horder old (List.mem_filter.mp hmem).1
    · exact hfits hevent
  · have hlast : [event].filter p = [] := by simp [hevent]
    rw [hlast, List.append_nil]
    exact hmetered

/-- No window of this length ever exceeds the budget. -/
theorem Metered.total_between_le (hmetered : Metered stamp cost window budget log) (start : ℕ) :
    total cost (between stamp start window log) ≤ budget := by
  induction hmetered with
  | nil => simp [between, total]
  | snoc log event hlog horder hfits ih =>
      have hsplit : between stamp start window (log ++ [event]) =
          between stamp start window log ++ between stamp start window [event] :=
        List.filter_append log [event]
      rw [hsplit, total_append]
      by_cases hinside : start ≤ stamp event ∧ stamp event < start + window
      · have hlast : between stamp start window [event] = [event] := by
          simp [between, hinside]
        have hsub : (between stamp start window log).Sublist
            (recent stamp (stamp event) window log) := by
          unfold between recent
          apply List.monotone_filter_right
          intro old hold
          simp only [decide_eq_true_eq] at hold ⊢
          omega
        have hle : total cost _ ≤ total cost _ := total_le_of_sublist hsub
        have hone : total cost [event] = cost event := by simp [total]
        rw [hlast, hone]
        omega
      · have hlast : between stamp start window [event] = [] := by
          simp only [between, List.filter_cons, List.filter_nil, decide_eq_true_eq]
          rw [if_neg hinside]
        have hzero : total cost ([] : List ε) = 0 := rfl
        rw [hlast, hzero, Nat.add_zero]
        exact ih

/-- The recent events never exceed the budget either. -/
theorem Metered.total_recent_le (hmetered : Metered stamp cost window budget log)
    (hpast : ∀ event ∈ log, stamp event ≤ now) :
    total cost (recent stamp now window log) ≤ budget := by
  have hsame : recent stamp now window log = between stamp (now + 1 - window) window log := by
    unfold recent between
    apply List.filter_congr
    intro event hmem
    have hle := hpast event hmem
    rw [decide_eq_decide]
    omega
  rw [hsame]
  exact hmetered.total_between_le _

end SlidingWindow
