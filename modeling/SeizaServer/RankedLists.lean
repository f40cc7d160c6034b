import Mathlib.Data.List.Sort
import Mathlib.Tactic

/-!
# Stable sorting by a key

Values in the order of a key, those of one key in the order they came in.
-/

namespace RankedLists

variable {α κ : Type*} [LinearOrder κ] {key : α → κ} {values : List α}

/-- The stable sort. -/
def rank (key : α → κ) (values : List α) : List α :=
  values.mergeSort fun first second => decide (key first ≤ key second)

/-- What a stable sort does. -/
structure Ranks (key : α → κ) (values ranked : List α) : Prop where
  perm : ranked.Perm values
  ascending : ranked.Pairwise fun first second => key first ≤ key second
  stable : ∀ k, ranked.filter (fun value => key value = k) =
    values.filter fun value => key value = k

theorem ranks_rank (key : α → κ) (values : List α) : Ranks key values (rank key values) := by
  have htrans : ∀ first second third : α, decide (key first ≤ key second) = true →
      decide (key second ≤ key third) = true → decide (key first ≤ key third) = true := by
    intro first second third hfirst hsecond
    rw [decide_eq_true_iff] at hfirst hsecond ⊢
    exact hfirst.trans hsecond
  have htotal : ∀ first second : α,
      (decide (key first ≤ key second) || decide (key second ≤ key first)) = true := by
    intro first second
    rw [Bool.or_eq_true, decide_eq_true_iff, decide_eq_true_iff]
    exact le_total _ _
  have hperm : (rank key values).Perm values := List.mergeSort_perm _ _
  refine ⟨hperm, ?_, ?_⟩
  · have hsorted := List.pairwise_mergeSort htrans htotal values
    exact hsorted.imp fun hle => of_decide_eq_true hle
  · intro k
    -- The values of one key are in order already, so sorting keeps them.
    have hsame : (values.filter fun value => key value = k).Pairwise
        fun first second => decide (key first ≤ key second) = true := by
      rw [List.pairwise_iff_forall_sublist]
      intro first second hsub
      have hfirst := (List.mem_filter.mp (hsub.subset List.mem_cons_self)).2
      have hsecond := (List.mem_filter.mp
        (hsub.subset (List.mem_cons_of_mem _ List.mem_cons_self))).2
      rw [decide_eq_true_iff] at hfirst hsecond ⊢
      rw [hfirst, hsecond]
    have hsub : (values.filter fun value => key value = k).Sublist (rank key values) :=
      List.sublist_mergeSort htrans htotal hsame List.filter_sublist
    have hkept := hsub.filter fun value => decide (key value = k)
    rw [List.filter_filter] at hkept
    simp only [Bool.and_self] at hkept
    exact (hkept.eq_of_length (hperm.filter _).length_eq.symm).symm

theorem rank_map {β : Type*} (key : α → κ) (f : β → α) (values : List β) :
    rank key (values.map f) = (rank (fun value => key (f value)) values).map f := by
  unfold rank
  rw [List.map_mergeSort]
  intro first _ second _
  rfl

/-- Values that are divided among disjoint conditions occur no more often than
before. -/
theorem flatMap_filter_subperm {conditions : List (α → Bool)}
    (hdisjoint : conditions.Pairwise fun first second =>
      ∀ value, first value = true → second value = false) (values : List α) :
    (conditions.flatMap fun condition => values.filter condition).Subperm values := by
  induction conditions generalizing values with
  | nil => exact List.nil_subperm
  | cons condition rest ih =>
      rw [List.pairwise_cons] at hdisjoint
      let left := values.filter fun value => !condition value
      have hrest : (rest.flatMap fun other => values.filter other) =
          rest.flatMap fun other => left.filter other := by
        apply List.flatMap_congr
        intro other hmem
        rw [List.filter_filter]
        apply List.filter_congr
        intro value _
        cases hvalue : condition value with
        | true => rw [hdisjoint.1 other hmem value hvalue, Bool.false_and]
        | false => rw [Bool.not_false, Bool.and_true]
      have hsub := ih hdisjoint.2 left
      rw [← hrest] at hsub
      rw [List.flatMap_cons]
      exact ((List.subperm_append_left _).mpr hsub).trans
        (List.filter_append_perm condition values).subperm

theorem Ranks.mem_iff {ranked : List α} (hranks : Ranks key values ranked) {value : α} :
    value ∈ ranked ↔ value ∈ values := hranks.perm.mem_iff

/-- The keys come out in the same order, whatever the order of the values. -/
theorem map_rank_of_perm {first second : List α} (hperm : first.Perm second) :
    (rank key first).map key = (rank key second).map key := by
  have hfirst := ranks_rank key first
  have hsecond := ranks_rank key second
  have hkeys : ((rank key first).map key).Perm ((rank key second).map key) :=
    ((hfirst.perm.trans hperm).trans hsecond.perm.symm).map key
  have hsorted : ((rank key first).map key).Pairwise (· ≤ ·) :=
    List.pairwise_map.mpr hfirst.ascending
  have hother : ((rank key second).map key).Pairwise (· ≤ ·) :=
    List.pairwise_map.mpr hsecond.ascending
  exact hkeys.eq_of_pairwise (fun _ _ _ _ hle hge => le_antisymm hle hge) hsorted hother

/-- And the values too, where no two have one key. -/
theorem rank_of_perm {first second : List α} (hperm : first.Perm second)
    (hdistinct : ∀ one ∈ first, ∀ other ∈ first, key one = key other → one = other) :
    rank key first = rank key second := by
  have hfirst := ranks_rank key first
  have hsecond := ranks_rank key second
  have hsame := (hfirst.perm.trans hperm).trans hsecond.perm.symm
  exact hsame.eq_of_pairwise (fun one other hone hother hle hge =>
    hdistinct one (hfirst.mem_iff.mp hone) other
      (hperm.mem_iff.mpr (hsecond.mem_iff.mp hother)) (le_antisymm hle hge))
    hfirst.ascending hsecond.ascending

/-! ## Values by their number -/

theorem flatMap_sublist {β : Type*} {first second : List α} {f g : α → List β}
    (hsub : first.Sublist second) (hparts : ∀ value, (f value).Sublist (g value)) :
    (first.flatMap f).Sublist (second.flatMap g) := by
  induction hsub with
  | slnil => exact List.Sublist.slnil
  | cons value _ ih =>
      rw [List.flatMap_cons]
      exact ih.trans (List.sublist_append_right _ _)
  | cons_cons value _ ih =>
      rw [List.flatMap_cons, List.flatMap_cons]
      exact (hparts value).append ih

/-- Parts that are left out may be empty ones. -/
theorem flatMap_of_sublist {β : Type*} {first second : List α} {f : α → List β}
    (hsub : first.Sublist second) (hunique : second.Nodup)
    (hempty : ∀ value ∈ second, value ∉ first → f value = []) :
    first.flatMap f = second.flatMap f := by
  induction hsub with
  | slnil => rfl
  | @cons first second value hrest ih =>
      rw [List.nodup_cons] at hunique
      have hout : value ∉ first := fun hmem => hunique.1 (hrest.subset hmem)
      rw [List.flatMap_cons, hempty value List.mem_cons_self hout, List.nil_append]
      exact ih hunique.2 fun other hmem hother =>
        hempty other (List.mem_cons_of_mem _ hmem) hother
  | @cons_cons first second value hrest ih =>
      rw [List.nodup_cons] at hunique
      rw [List.flatMap_cons, List.flatMap_cons, ih hunique.2]
      intro other hmem hother
      apply hempty other (List.mem_cons_of_mem _ hmem)
      intro hin
      rw [List.mem_cons] at hin
      cases hin with
      | inl hsame =>
          rw [hsame] at hmem
          exact hunique.1 hmem
      | inr hin => exact hother hin

/-- Values collected number by number. -/
theorem flatMap_filter_perm (number : α → ℕ) (values : List α) (count : ℕ) :
    ((List.range count).flatMap fun index => values.filter fun value => number value = index).Perm
      (values.filter fun value => number value < count) := by
  induction count with
  | zero => simp
  | succ count ih =>
      rw [List.range_succ, List.flatMap_append, List.flatMap_cons, List.flatMap_nil,
        List.append_nil]
      have hbelow : (values.filter fun value => number value < count + 1).filter
          (fun value => number value < count) =
            values.filter fun value => number value < count := by
        rw [List.filter_filter]
        apply List.filter_congr
        intro value _
        rw [← Bool.decide_and, decide_eq_decide]
        omega
      have hlast : ((values.filter fun value => number value < count + 1).filter
          fun value => !decide (number value < count)) =
            values.filter fun value => number value = count := by
        rw [List.filter_filter]
        apply List.filter_congr
        intro value _
        rw [← decide_not, ← Bool.decide_and, decide_eq_decide]
        omega
      have hsplit := List.filter_append_perm (fun value => decide (number value < count))
        (values.filter fun value => number value < count + 1)
      rw [hbelow, hlast] at hsplit
      exact (ih.append_right _).trans hsplit

end RankedLists
