import Mathlib.Tactic
import Mathlib.Data.List.Nodup

/-!
# Tables with a primary key

A table is its list of rows in insertion order together with the fact that no
two rows share their key, so a table that violates its primary key cannot be
built.  `find?` is the view by key, and the lemmas of this file reduce every
operation to that view.
-/

variable {α κ : Type*}

/-- Rows in insertion order, no two of them with the same key. -/
structure KeyedTable (α κ : Type*) (key : α → κ) where
  rows : List α
  unique : (rows.map key).Nodup

namespace KeyedTable

variable {key : α → κ}

def empty : KeyedTable α κ key := ⟨[], List.nodup_nil⟩

@[ext] theorem ext {first second : KeyedTable α κ key}
    (hrows : first.rows = second.rows) : first = second := by
  cases first
  cases second
  simp only at hrows
  subst hrows
  rfl

/-- Rewrite in place the rows selected by `p`.  The key of a row never
changes. -/
def modify (table : KeyedTable α κ key) (p : α → Bool) (f : α → α)
    (hkey : ∀ row, key (f row) = key row := by intro row; rfl) :
    KeyedTable α κ key where
  rows := table.rows.map fun row => if p row then f row else row
  unique := by
    have hkeys : (table.rows.map fun row => if p row then f row else row).map key =
        table.rows.map key := by
      rw [List.map_map]
      apply List.map_congr_left
      intro row _
      by_cases hrow : p row <;> simp [hrow, hkey]
    rw [hkeys]
    exact table.unique

/-- How many rows a statement with this condition affects. -/
def affected (table : KeyedTable α κ key) (p : α → Bool) : ℕ :=
  table.rows.countP p

variable [DecidableEq κ]

def find? (table : KeyedTable α κ key) (k : κ) : Option α :=
  table.rows.find? fun row => key row = k

/-- Append a row whose key is new. -/
def append (table : KeyedTable α κ key) (row : α)
    (hnew : table.find? (key row) = none) : KeyedTable α κ key where
  rows := table.rows ++ [row]
  unique := by
    simp only [find?, List.find?_eq_none, decide_eq_true_eq] at hnew
    rw [List.map_append, List.map_singleton, List.nodup_append]
    refine ⟨table.unique, List.nodup_singleton _, ?_⟩
    intro k hk other hother
    rw [List.mem_singleton.mp hother]
    obtain ⟨row', hmem, rfl⟩ := List.mem_map.mp hk
    exact hnew row' hmem

/-- Insert a row, refusing a duplicate key. -/
def insert? (table : KeyedTable α κ key) (row : α) :
    Option (KeyedTable α κ key) :=
  if hnew : table.find? (key row) = none then some (table.append row hnew) else none

/-- Insert a row, or rewrite the row that already carries its key. -/
def upsert (table : KeyedTable α κ key) (row : α) (update : α → α)
    (hkey : ∀ row, key (update row) = key row := by intro row; rfl) :
    KeyedTable α κ key :=
  if hnew : table.find? (key row) = none then table.append row hnew
  else table.modify (fun other => key other = key row) update hkey

@[simp] theorem find?_empty (k : κ) :
    (empty : KeyedTable α κ key).find? k = none := rfl

theorem key_of_find? {table : KeyedTable α κ key} {k : κ} {row : α}
    (hfind : table.find? k = some row) : key row = k := by
  simpa using List.find?_some hfind

theorem mem_of_find? {table : KeyedTable α κ key} {k : κ} {row : α}
    (hfind : table.find? k = some row) : row ∈ table.rows :=
  List.mem_of_find?_eq_some hfind

theorem find?_of_mem {table : KeyedTable α κ key} {row : α}
    (hmem : row ∈ table.rows) : table.find? (key row) = some row := by
  cases hfind : table.find? (key row) with
  | none =>
      have habsent := List.find?_eq_none.mp hfind row hmem
      simp at habsent
  | some other =>
      have hother := mem_of_find? hfind
      have hsame := key_of_find? hfind
      rw [List.inj_on_of_nodup_map table.unique hother hmem hsame]

theorem mem_rows_iff {table : KeyedTable α κ key} {row : α} :
    row ∈ table.rows ↔ table.find? (key row) = some row :=
  ⟨find?_of_mem, mem_of_find?⟩

theorem find?_modify (table : KeyedTable α κ key) (p : α → Bool) (f : α → α)
    (hkey : ∀ row, key (f row) = key row) (k : κ) :
    (table.modify p f hkey).find? k =
      (table.find? k).map fun row => if p row then f row else row := by
  unfold find? modify
  simp only [List.find?_map]
  congr 2
  funext row
  by_cases hrow : p row <;> simp [hrow, hkey]

theorem find?_append (table : KeyedTable α κ key) (row : α)
    (hnew : table.find? (key row) = none) (k : κ) :
    (table.append row hnew).find? k =
      if key row = k then some row else table.find? k := by
  unfold append
  by_cases hk : key row = k
  · subst hk
    unfold find? at hnew
    simp [find?, List.find?_append, hnew]
  · simp [find?, List.find?_append, hk]

theorem find?_insert? {table inserted : KeyedTable α κ key} {row : α}
    (hinsert : table.insert? row = some inserted) (k : κ) :
    inserted.find? k = if key row = k then some row else table.find? k := by
  unfold insert? at hinsert
  split at hinsert
  next hnew =>
    rw [← Option.some.inj hinsert]
    exact find?_append table row hnew k
  next => simp at hinsert

theorem insert?_eq_none_iff {table : KeyedTable α κ key} {row : α} :
    table.insert? row = none ↔ (table.find? (key row)).isSome := by
  unfold insert?
  split
  next hnew => simp [hnew]
  next hold => simpa [Option.isSome_iff_ne_none] using hold

theorem fresh_of_insert? {table inserted : KeyedTable α κ key} {row : α}
    (hinsert : table.insert? row = some inserted) : table.find? (key row) = none := by
  unfold insert? at hinsert
  split at hinsert
  next hnew => exact hnew
  next => simp at hinsert

theorem rows_of_insert? {table inserted : KeyedTable α κ key} {row : α}
    (hinsert : table.insert? row = some inserted) :
    inserted.rows = table.rows ++ [row] := by
  unfold insert? at hinsert
  split at hinsert
  next hnew =>
    rw [← Option.some.inj hinsert]
    rfl
  next => simp at hinsert

theorem find?_upsert (table : KeyedTable α κ key) (row : α) (update : α → α)
    (hkey : ∀ row, key (update row) = key row) (k : κ) :
    (table.upsert row update hkey).find? k =
      if key row = k then some ((table.find? k).elim row update)
      else table.find? k := by
  unfold upsert
  split
  next hnew =>
    rw [find?_append]
    by_cases hk : key row = k
    · subst hk
      simp [hnew]
    · simp [hk]
  next hold =>
    rw [find?_modify]
    cases hfind : table.find? k with
    | none =>
        have hk : key row ≠ k := by
          intro hk
          rw [hk] at hold
          exact hold hfind
        simp [hk]
    | some other =>
        have hother := key_of_find? hfind
        by_cases hk : key row = k
        · simp [hother, hk]
        · have hk' : ¬ k = key row := fun h => hk h.symm
          simp [hother, hk, hk']

/-! ### Versions of rows -/

/-- Write a version of a row, whether or not its key is there. -/
def put (table : KeyedTable α κ key) (row : α) : KeyedTable α κ key :=
  table.upsert row (fun other => if key other = key row then row else other) (by
    intro other
    by_cases hkey : key other = key row
    · rw [if_pos hkey, hkey]
    · rw [if_neg hkey])

/-- Write a version of a row, if there is one. -/
def putOption (table : KeyedTable α κ key) : Option α → KeyedTable α κ key
  | none => table
  | some row => table.put row

/-- Remove the row with this key. -/
def erase (table : KeyedTable α κ key) (k : κ) : KeyedTable α κ key where
  rows := table.rows.filter fun row => key row ≠ k
  unique := table.unique.sublist (List.filter_sublist.map key)

/-- Keep only the rows that satisfy a condition. -/
def filter (table : KeyedTable α κ key) (p : α → Bool) : KeyedTable α κ key where
  rows := table.rows.filter p
  unique := table.unique.sublist (List.filter_sublist.map key)

/-- The table as seen through newer versions of some of its rows. -/
def overlay (base versions : KeyedTable α κ key) : KeyedTable α κ key :=
  versions.rows.foldl put base

theorem find?_put (table : KeyedTable α κ key) (row : α) (k : κ) :
    (table.put row).find? k = if key row = k then some row else table.find? k := by
  unfold put
  rw [find?_upsert]
  by_cases hk : key row = k
  · rw [if_pos hk, if_pos hk]
    cases hfind : table.find? k with
    | none => rfl
    | some other =>
        have hother := key_of_find? hfind
        rw [Option.elim_some, if_pos (hother.trans hk.symm)]
  · rw [if_neg hk, if_neg hk]

theorem find?_putOption_of_ne {table : KeyedTable α κ key} {row : Option α} {k : κ}
    (hne : ∀ other, row = some other → key other ≠ k) :
    (table.putOption row).find? k = table.find? k := by
  cases row with
  | none => rfl
  | some other => exact (find?_put table other k).trans (if_neg (hne other rfl))

theorem find?_erase (table : KeyedTable α κ key) (k other : κ) :
    (table.erase k).find? other = if other = k then none else table.find? other := by
  unfold erase find?
  by_cases hk : other = k
  · subst hk
    rw [if_pos rfl, List.find?_eq_none]
    intro row hmem
    simpa using (List.mem_filter.mp hmem).2
  · rw [if_neg hk, List.find?_filter]
    congr 1
    funext row
    by_cases hrow : key row = other <;> simp [hrow, hk]

theorem find?_filter (table : KeyedTable α κ key) (p : α → Bool) (k : κ) :
    (table.filter p).find? k = (table.find? k).filter p := by
  cases hfind : table.find? k with
  | none =>
      unfold filter
      unfold find? at hfind ⊢
      rw [List.find?_eq_none] at hfind
      rw [Option.filter_none, List.find?_eq_none]
      intro row hmem
      exact hfind row (List.mem_filter.mp hmem).1
  | some row =>
      have hmem := mem_of_find? hfind
      have hkey := key_of_find? hfind
      cases hrow : p row with
      | true =>
          have hkept : row ∈ (table.filter p).rows := List.mem_filter.mpr ⟨hmem, hrow⟩
          have hfound := find?_of_mem hkept
          rw [hkey] at hfound
          rw [hfound, Option.filter_some, if_pos hrow]
      | false =>
          unfold filter find?
          rw [Option.filter_some, hrow, if_neg Bool.false_ne_true, List.find?_eq_none]
          intro other hother hsame
          rw [List.mem_filter] at hother
          have hsame : key other = key row := (of_decide_eq_true hsame).trans hkey.symm
          have heq := List.inj_on_of_nodup_map table.unique hother.1 hmem hsame
          rw [heq, hrow] at hother
          exact absurd hother.2 (by simp)

/-- A newer version hides the row below it. -/
theorem find?_overlay (base versions : KeyedTable α κ key) (k : κ) :
    (base.overlay versions).find? k = (versions.find? k).or (base.find? k) := by
  obtain ⟨rows, hunique⟩ := versions
  unfold overlay
  simp only
  induction rows generalizing base with
  | nil => rfl
  | cons row rest ih =>
      obtain ⟨hfresh, hrest⟩ := List.nodup_cons.mp hunique
      rw [List.foldl_cons, ih (base.put row) hrest, find?_put]
      simp only [find?, List.find?_cons]
      by_cases hk : key row = k
      · have hnone : rest.find? (fun row => decide (key row = k)) = none := by
          rw [List.find?_eq_none]
          intro other hmem hcontra
          simp only [decide_eq_true_eq] at hcontra
          exact hfresh (List.mem_map.mpr ⟨other, hmem, hcontra.trans hk.symm⟩)
        simp [hk, hnone]
      · simp [hk]

private theorem countP_key {rows : List α} (hunique : (rows.map key).Nodup)
    (k : κ) (p : α → Bool) :
    rows.countP (fun row => key row = k && p row) =
      (rows.find? fun row => key row = k).elim 0 fun row => if p row then 1 else 0 := by
  induction rows with
  | nil => rfl
  | cons row rows ih =>
      obtain ⟨hfresh, htail⟩ := List.nodup_cons.mp hunique
      by_cases hk : key row = k
      · have hnone : rows.countP (fun row => key row = k && p row) = 0 := by
          rw [List.countP_eq_zero]
          intro other hother hcontra
          simp only [Bool.and_eq_true, decide_eq_true_eq] at hcontra
          exact hfresh (List.mem_map.mpr ⟨other, hother, hcontra.1.trans hk.symm⟩)
        rw [List.countP_cons, hnone]
        simp [hk]
      · rw [List.countP_cons, ih htail]
        simp [hk]

/-- A condition that pins the key down affects at most one row. -/
theorem affected_eq (table : KeyedTable α κ key) (k : κ) (p : α → Bool) :
    table.affected (fun row => key row = k && p row) =
      (table.find? k).elim 0 fun row => if p row then 1 else 0 :=
  countP_key table.unique k p

end KeyedTable
