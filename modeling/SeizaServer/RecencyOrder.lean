import Mathlib.Data.List.Dedup
import Mathlib.Data.List.DropRight
import Mathlib.Tactic

/-!
# Keys by their last use

A list of keys without repetitions, the least recently used first.  Using a key
moves it to the end, and keeping the last keys only commutes with that, so a
bounded list is always the end of the list of all keys ever used.
-/

namespace RecencyOrder

variable {κ : Type*}

/-! ## The last keys of a list -/

theorem rtake_eq_self {order : List κ} {count : ℕ} (hcount : order.length ≤ count) :
    order.rtake count = order := by
  rw [List.rtake, Nat.sub_eq_zero_of_le hcount, List.drop_zero]

theorem rtake_append {first second : List κ} {count : ℕ} (hcount : count ≤ second.length) :
    (first ++ second).rtake count = second.rtake count := by
  rw [List.rtake_eq_reverse_take_reverse, List.rtake_eq_reverse_take_reverse, List.reverse_append,
    List.take_append_of_le_length (by rwa [List.length_reverse])]

theorem length_rtake_le (count : ℕ) (order : List κ) : (order.rtake count).length ≤ count := by
  rw [List.rtake, List.length_drop]
  omega

/-! ## Recency -/

variable [DecidableEq κ]

/-- The key moves to the end. -/
def touch (order : List κ) (key : κ) : List κ :=
  (order.filter fun existing => existing ≠ key) ++ [key]

/-- The keys used last, `capacity` of them at most. -/
def recent (capacity : ℕ) (uses : List κ) : List κ := uses.dedup.rtake capacity

/-- When a key was used last, counted from the first use. -/
def lastUse (uses : List κ) (key : κ) : ℕ := uses.length - uses.reverse.idxOf key

theorem dedup_snoc (uses : List κ) (key : κ) : (uses ++ [key]).dedup = touch uses.dedup key := by
  unfold touch
  induction uses with
  | nil => rfl
  | cons first rest ih =>
      rw [List.cons_append]
      by_cases hrest : first ∈ rest
      · rw [List.dedup_cons_of_mem hrest,
          List.dedup_cons_of_mem (List.mem_append_left [key] hrest), ih]
      · rw [List.dedup_cons_of_notMem hrest]
        by_cases hfirst : first = key
        · have hlater : first ∈ rest ++ [key] := by simp [hfirst]
          rw [List.dedup_cons_of_mem hlater, ih, List.filter_cons]
          simp [hfirst]
        · have hlater : first ∉ rest ++ [key] := by simp [hrest, hfirst]
          rw [List.dedup_cons_of_notMem hlater, ih, List.filter_cons]
          simp [hfirst]

theorem mem_touch {order : List κ} {key other : κ} :
    other ∈ touch order key ↔ other ∈ order ∨ other = key := by
  unfold touch
  by_cases hother : other = key <;> simp [hother]

theorem filter_ne_eq_erase {order : List κ} (hnodup : order.Nodup) (key : κ) :
    (order.filter fun existing => existing ≠ key) = order.erase key := by
  rw [hnodup.erase_eq_filter]
  apply List.filter_congr
  intro existing _
  by_cases hkey : existing = key <;> simp [hkey]

theorem length_le_filter_ne {order : List κ} (hnodup : order.Nodup) (key : κ) :
    order.length ≤ (order.filter fun existing => existing ≠ key).length + 1 := by
  rw [filter_ne_eq_erase hnodup, List.length_erase]
  split_ifs <;> omega

/-- A key more than fits pushes out at most the first one. -/
theorem rtake_filter_ne {order : List κ} (hnodup : order.Nodup) (count : ℕ) (key : κ) :
    (order.filter fun existing => existing ≠ key).rtake count =
      ((order.rtake (count + 1)).filter fun existing => existing ≠ key).rtake count := by
  by_cases hfits : order.length ≤ count + 1
  · rw [rtake_eq_self hfits]
  · have hsplit : order = order.take (order.length - (count + 1)) ++ order.rtake (count + 1) :=
      (List.take_append_drop _ order).symm
    have hlast : (order.rtake (count + 1)).length = count + 1 := by
      rw [List.rtake, List.length_drop]
      omega
    have hkept := length_le_filter_ne (hnodup.sublist (List.drop_sublist _ order) :
      (order.rtake (count + 1)).Nodup) key
    conv_lhs => rw [hsplit, List.filter_append]
    exact rtake_append (by omega)

/-! ## The keys used last -/

theorem nodup_recent (capacity : ℕ) (uses : List κ) : (recent capacity uses).Nodup :=
  (List.nodup_dedup uses).sublist (List.drop_sublist _ _)

theorem length_recent_le (capacity : ℕ) (uses : List κ) :
    (recent capacity uses).length ≤ capacity :=
  length_rtake_le capacity uses.dedup

theorem recent_snoc (capacity : ℕ) (uses : List κ) (key : κ) :
    recent capacity (uses ++ [key]) = (touch (recent capacity uses) key).rtake capacity := by
  cases capacity with
  | zero => rw [List.rtake_zero]; exact List.rtake_zero _
  | succ count =>
      rw [recent, dedup_snoc, touch, touch, List.rtake_concat_succ, List.rtake_concat_succ]
      exact congrArg (· ++ [key]) (rtake_filter_ne (List.nodup_dedup uses) count key)

theorem length_touch_of_mem {order : List κ} (hnodup : order.Nodup) {key : κ}
    (hmem : key ∈ order) : (touch order key).length = order.length := by
  rw [touch, List.length_append, filter_ne_eq_erase hnodup, List.length_erase_of_mem hmem,
    List.length_singleton]
  have hpos := List.length_pos_of_mem hmem
  omega

/-- Using a key that is there pushes none out. -/
theorem recent_snoc_of_mem {capacity : ℕ} {uses : List κ} {key : κ}
    (hmem : key ∈ recent capacity uses) :
    recent capacity (uses ++ [key]) = touch (recent capacity uses) key := by
  rw [recent_snoc]
  apply rtake_eq_self
  rw [length_touch_of_mem (nodup_recent capacity uses) hmem]
  exact length_recent_le capacity uses

theorem lastUse_snoc_self (uses : List κ) (key : κ) :
    lastUse (uses ++ [key]) key = uses.length + 1 := by
  simp [lastUse]

theorem lastUse_snoc_of_ne (uses : List κ) {key other : κ} (hother : other ≠ key) :
    lastUse (uses ++ [key]) other = lastUse uses other := by
  simp [lastUse, List.idxOf_cons_ne _ hother.symm]

theorem lastUse_le (uses : List κ) (key : κ) : lastUse uses key ≤ uses.length :=
  Nat.sub_le _ _

/-- The keys stand in the order of their last use. -/
theorem pairwise_lastUse (uses : List κ) :
    uses.dedup.Pairwise fun older newer => lastUse uses older < lastUse uses newer := by
  induction uses using List.reverseRecOn with
  | nil => exact List.Pairwise.nil
  | append_singleton uses key ih =>
      rw [dedup_snoc, touch, List.pairwise_append]
      refine ⟨?_, List.pairwise_singleton _ _, ?_⟩
      · apply (ih.filter _).imp_of_mem
        intro older newer holder hnewer hlt
        have holder : older ≠ key := of_decide_eq_true (List.mem_filter.mp holder).2
        have hnewer : newer ≠ key := of_decide_eq_true (List.mem_filter.mp hnewer).2
        rwa [lastUse_snoc_of_ne uses holder, lastUse_snoc_of_ne uses hnewer]
      · intro older holder newer hnewer
        have holder : older ≠ key := of_decide_eq_true (List.mem_filter.mp holder).2
        rw [List.mem_singleton.mp hnewer, lastUse_snoc_self, lastUse_snoc_of_ne uses holder]
        exact Nat.lt_succ_of_le (lastUse_le uses older)

theorem pairwise_recent (capacity : ℕ) (uses : List κ) :
    (recent capacity uses).Pairwise fun older newer =>
      lastUse uses older < lastUse uses newer :=
  (pairwise_lastUse uses).sublist (List.drop_sublist _ _)

end RecencyOrder
