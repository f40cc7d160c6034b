import Mathlib.Data.List.Sort
import Mathlib.Data.List.TakeWhile
import Mathlib.Tactic
import SeizaServer.KeyedTable

/-!
# Lists of rows with a key

Sorting by a key, looking rows up in a map that was collected from a list, and
checking the rows of a list one after the other.  Where no two rows share their
key, a sorted list is determined by its rows, so that a round trip through an
unordered store can be compared as lists.
-/

namespace KeyedLists

universe u v

variable {α β : Type u} {κ : Type*} {ε : Type v}

section Sorting

variable [LinearOrder κ]

/-- The stable sort by a key. -/
def sortByKey (key : α → κ) (rows : List α) : List α :=
  rows.mergeSort fun first second => decide (key first ≤ key second)

theorem sortByKey_perm (key : α → κ) (rows : List α) : (sortByKey key rows).Perm rows :=
  List.mergeSort_perm rows _

@[simp] theorem mem_sortByKey {key : α → κ} {rows : List α} {row : α} :
    row ∈ sortByKey key rows ↔ row ∈ rows :=
  (sortByKey_perm key rows).mem_iff

theorem pairwise_sortByKey (key : α → κ) (rows : List α) :
    (sortByKey key rows).Pairwise fun first second => key first ≤ key second := by
  have hsorted := @List.pairwise_mergeSort α (fun first second => decide (key first ≤ key second))
    (by
      intro first second third hfirst hsecond
      simp only [decide_eq_true_eq] at hfirst hsecond ⊢
      exact hfirst.trans hsecond)
    (by
      intro first second
      simpa using le_total (key first) (key second)) rows
  exact hsorted.imp fun h => of_decide_eq_true h

theorem sortByKey_of_pairwise {key : α → κ} {rows : List α}
    (hsorted : rows.Pairwise fun first second => key first ≤ key second) :
    sortByKey key rows = rows :=
  List.mergeSort_of_pairwise (hsorted.imp fun h => decide_eq_true h)

/-- With distinct keys the sorted list depends on the rows alone. -/
theorem sortByKey_eq_of_perm {key : α → κ} {rows others : List α} (hperm : rows.Perm others)
    (hkeys : (rows.map key).Nodup) : sortByKey key rows = sortByKey key others := by
  have hsame : (sortByKey key rows).Perm (sortByKey key others) :=
    (sortByKey_perm key rows).trans (hperm.trans (sortByKey_perm key others).symm)
  refine hsame.eq_of_pairwise ?_ (pairwise_sortByKey key rows) (pairwise_sortByKey key others)
  intro first second hfirst hsecond hle hge
  have hmem : second ∈ rows := hperm.mem_iff.mpr (mem_sortByKey.mp hsecond)
  exact List.inj_on_of_nodup_map hkeys (mem_sortByKey.mp hfirst) hmem (le_antisymm hle hge)

theorem eq_nil_of_sortByKey {key : α → κ} {rows : List α}
    (hempty : (sortByKey key rows).isEmpty = true) : rows = [] := by
  rw [List.isEmpty_iff] at hempty
  exact List.perm_nil.mp (hempty ▸ (sortByKey_perm key rows).symm)

end Sorting

/-- Distinct rows of a list whose rows are pairwise apart are pairwise apart. -/
theorem pairwise_of_subset {R : α → α → Prop} [Std.Symm R] {rows part : List α}
    (hapart : rows.Pairwise R) (hpart : ∀ row ∈ part, row ∈ rows) (hnodup : part.Nodup) :
    part.Pairwise R :=
  hnodup.imp_of_mem fun hfirst hsecond hne =>
    hapart.forall (hpart _ hfirst) (hpart _ hsecond) hne

/-! ## Maps collected from a list -/

section Lookup

variable [DecidableEq κ]

/-- What a map collected from the rows holds at a key: a later row replaces an
earlier one. -/
def lastWith (key : α → κ) (rows : List α) (k : κ) : Option α :=
  rows.reverse.find? fun row => key row = k

theorem mem_of_lastWith {key : α → κ} {rows : List α} {k : κ} {row : α}
    (hlast : lastWith key rows k = some row) : row ∈ rows ∧ key row = k := by
  constructor
  · exact List.mem_reverse.mp (List.mem_of_find?_eq_some hlast)
  · simpa using List.find?_some hlast

theorem lastWith_of_mem {key : α → κ} {rows : List α} (hkeys : (rows.map key).Nodup) {row : α}
    (hmem : row ∈ rows) : lastWith key rows (key row) = some row := by
  cases hlast : lastWith key rows (key row) with
  | none =>
      have habsent := List.find?_eq_none.mp hlast row (List.mem_reverse.mpr hmem)
      simp at habsent
  | some other =>
      obtain ⟨hother, hkey⟩ := mem_of_lastWith hlast
      rw [List.inj_on_of_nodup_map hkeys hother hmem hkey]

end Lookup

theorem bind_eq_ok {action : Except ε α} {next : α → Except ε β} {value : β} :
    action >>= next = .ok value ↔ ∃ middle, action = .ok middle ∧ next middle = .ok value := by
  cases action with
  | error message => simp [bind, Except.bind]
  | ok middle => simp [bind, Except.bind]

theorem check_bind_eq_ok {check : Except ε Unit} {next : Unit → Except ε Unit} :
    check >>= next = .ok () ↔ check = .ok () ∧ next () = .ok () := by
  rw [bind_eq_ok]
  constructor
  · rintro ⟨_, hcheck, hnext⟩
    exact ⟨hcheck, hnext⟩
  · rintro ⟨hcheck, hnext⟩
    exact ⟨(), hcheck, hnext⟩

/-- Refuse with a message unless the condition holds. -/
def ensure (condition : Bool) (message : ε) : Except ε Unit :=
  if condition then .ok () else .error message

@[simp] theorem ensure_eq_ok {condition : Bool} {message : ε} {value : Unit} :
    ensure condition message = .ok value ↔ condition = true := by
  cases condition <;> simp [ensure]

/-- Check each row against the rows before it. -/
def checkEach (check : List α → α → Except ε Unit) : List α → List α → Except ε Unit
  | _, [] => .ok ()
  | seen, row :: rest => do
      check seen row
      checkEach check (row :: seen) rest

/-- Where a check compares a row with each row before it, the whole list passes
exactly if its rows are good and pairwise apart. -/
theorem checkEach_eq_ok {check : List α → α → Except ε Unit} {good : α → Prop}
    {apart : α → α → Prop}
    (hcheck : ∀ seen row, check seen row = .ok () ↔
      good row ∧ ∀ other ∈ seen, apart other row) (seen rows : List α) :
    checkEach check seen rows = .ok () ↔
      (∀ row ∈ rows, good row) ∧ (∀ other ∈ seen, ∀ row ∈ rows, apart other row) ∧
        rows.Pairwise apart := by
  induction rows generalizing seen with
  | nil => simp [checkEach]
  | cons row rest ih =>
      unfold checkEach
      rw [check_bind_eq_ok]
      simp only [hcheck, ih, List.forall_mem_cons, List.pairwise_cons]
      constructor
      · rintro ⟨⟨hgood, hseen⟩, hrest, ⟨hrow, hlater⟩, hpairs⟩
        exact ⟨⟨hgood, hrest⟩, fun other hother => ⟨hseen other hother, hlater other hother⟩,
          hrow, hpairs⟩
      · rintro ⟨⟨hgood, hrest⟩, hseen, hrow, hpairs⟩
        exact ⟨⟨hgood, fun other hother => (hseen other hother).1⟩, hrest,
          ⟨hrow, fun other hother => (hseen other hother).2⟩, hpairs⟩

theorem forM_eq_ok {action : α → Except ε Unit} (rows : List α) :
    rows.forM action = .ok () ↔ ∀ row ∈ rows, action row = .ok () := by
  induction rows with
  | nil => simp [List.forM, pure, Except.pure]
  | cons row rest ih =>
      change (action row >>= fun _ => rest.forM action) = .ok () ↔ _
      rw [check_bind_eq_ok]
      simp only [ih, List.forall_mem_cons]

theorem mapM_of_eq_ok {read : α → Except ε β} {rows : List α} {values : List β}
    (hread : rows.mapM read = .ok values) :
    List.Forall₂ (fun row value => read row = .ok value) rows values := by
  induction rows generalizing values with
  | nil =>
      rw [List.mapM_nil] at hread
      cases hread
      exact .nil
  | cons row rest ih =>
      rw [List.mapM_cons, bind_eq_ok] at hread
      obtain ⟨value, hvalue, hrest⟩ := hread
      rw [bind_eq_ok] at hrest
      obtain ⟨later, hlater, hvalues⟩ := hrest
      cases hvalues
      exact .cons hvalue (ih hlater)

theorem mapM_eq_ok_of_forall₂ {read : α → Except ε β} {rows : List α} {values : List β}
    (hread : List.Forall₂ (fun row value => read row = .ok value) rows values) :
    rows.mapM read = .ok values := by
  induction hread with
  | nil => rfl
  | cons hrow _ ih =>
      rw [List.mapM_cons, hrow, ih]
      rfl

theorem exists_forall₂ {R : α → β → Prop} {rows : List α} (hrows : ∀ row ∈ rows, ∃ value, R row value) :
    ∃ values, List.Forall₂ R rows values := by
  induction rows with
  | nil => exact ⟨[], .nil⟩
  | cons row rest ih =>
      rw [List.forall_mem_cons] at hrows
      obtain ⟨value, hvalue⟩ := hrows.1
      obtain ⟨values, hvalues⟩ := ih hrows.2
      exact ⟨value :: values, .cons hvalue hvalues⟩

theorem forall₂_and_mem {R : α → β → Prop} {rows : List α} {values : List β}
    (hrows : List.Forall₂ R rows values) :
    List.Forall₂ (fun row value => row ∈ rows ∧ R row value) rows values := by
  induction hrows with
  | nil => exact .nil
  | cons hrow _ ih =>
      exact .cons ⟨List.mem_cons_self, hrow⟩
        (ih.imp fun _ _ h => ⟨List.mem_cons_of_mem _ h.1, h.2⟩)

theorem map_eq_of_forall₂ {κ : Type*} {R : α → β → Prop} {left : α → κ} {right : β → κ}
    (hsame : ∀ row value, R row value → left row = right value) {rows : List α} {values : List β}
    (hrows : List.Forall₂ R rows values) : rows.map left = values.map right := by
  induction hrows with
  | nil => rfl
  | cons hrow _ ih => rw [List.map_cons, List.map_cons, hsame _ _ hrow, ih]

theorem exists_of_mem_left {R : α → β → Prop} {rows : List α} {values : List β}
    (hrows : List.Forall₂ R rows values) {row : α} (hmem : row ∈ rows) :
    ∃ value ∈ values, R row value := by
  induction hrows with
  | nil => simp at hmem
  | cons hrow _ ih =>
      rcases List.mem_cons.mp hmem with rfl | hrest
      · exact ⟨_, List.mem_cons_self, hrow⟩
      · obtain ⟨value, hvalue, hread⟩ := ih hrest
        exact ⟨value, List.mem_cons_of_mem _ hvalue, hread⟩

theorem exists_of_mem_right {R : α → β → Prop} {rows : List α} {values : List β}
    (hrows : List.Forall₂ R rows values) {value : β} (hmem : value ∈ values) :
    ∃ row ∈ rows, R row value :=
  exists_of_mem_left (R := fun value row => R row value) hrows.flip hmem

/-- Reading the rows in another order gives the values in another order. -/
theorem exists_mapM_of_perm {read : α → Except ε β} {rows others : List α} {values : List β}
    (hperm : rows.Perm others) (hread : others.mapM read = .ok values) :
    ∃ read', rows.mapM read = .ok read' ∧ read'.Perm values := by
  have hothers := mapM_of_eq_ok hread
  have hrows : ∀ row ∈ rows, ∃ value, read row = .ok value := by
    intro row hmem
    obtain ⟨value, _, hvalue⟩ := exists_of_mem_left hothers (hperm.mem_iff.mp hmem)
    exact ⟨value, hvalue⟩
  obtain ⟨read', hread'⟩ := exists_forall₂ hrows
  have hdecode : ∀ row value, read row = .ok value → (read row).toOption = some value := by
    intro row value hok
    rw [hok]
    rfl
  refine ⟨read', mapM_eq_ok_of_forall₂ hread', ?_⟩
  rw [← List.map_perm_map_iff (Option.some_injective β), ← map_eq_of_forall₂ hdecode hread',
    ← map_eq_of_forall₂ hdecode hothers]
  exact hperm.map _

/-- Rows that are rewritten without a change to their values are read as before. -/
theorem exists_mapM_of_rewrite {γ : Type u} {read : α → Except ε β} (read' : γ → Except ε β)
    {row : α → γ} {rows : List α} {values : List β} (hread : rows.mapM read = .ok values)
    (hsame : ∀ old ∈ rows, ∀ value, read old = .ok value → read' (row old) = .ok value)
    {others : List γ} (hperm : others.Perm (rows.map row)) :
    ∃ values', others.mapM read' = .ok values' ∧ values'.Perm values := by
  refine exists_mapM_of_perm hperm (mapM_eq_ok_of_forall₂ ?_)
  rw [List.forall₂_map_left_iff]
  exact (forall₂_and_mem (mapM_of_eq_ok hread)).imp fun old value h => hsame old h.1 value h.2

/-- Rows that were written from a list of values are read back as these values. -/
theorem exists_mapM_perm (read : α → Except ε β) {row : β → α} {rows : List α} {values : List β}
    (hperm : rows.Perm (values.map row)) (hread : ∀ value ∈ values, read (row value) = .ok value) :
    ∃ others, rows.mapM read = .ok others ∧ others.Perm values := by
  refine exists_mapM_of_perm hperm (mapM_eq_ok_of_forall₂ ?_)
  rw [List.forall₂_map_left_iff, List.forall₂_same]
  exact hread

section Separators

variable [DecidableEq α] {separator : α} {text : List α}

theorem dropWhile_append_separator (hplain : separator ∉ text) (rest : List α) :
    (text ++ separator :: rest).dropWhile (fun c => c ≠ separator) = separator :: rest := by
  rw [List.dropWhile_append_of_pos]
  · simp
  · intro c hmem
    have hne : c ≠ separator := fun hc => hplain (hc ▸ hmem)
    simpa using hne

theorem takeWhile_append_separator (hplain : separator ∉ text) (rest : List α) :
    (text ++ separator :: rest).takeWhile (fun c => c ≠ separator) = text := by
  rw [List.takeWhile_append_of_pos]
  · simp
  · intro c hmem
    have hne : c ≠ separator := fun hc => hplain (hc ▸ hmem)
    simpa using hne

/-- What is in front of the first separator, if there is one. -/
theorem eq_append_of_dropWhile {head : α} {rest : List α}
    (hdrop : text.dropWhile (fun c => c ≠ separator) = head :: rest) :
    separator ∉ text.takeWhile (fun c => c ≠ separator) ∧
      text = text.takeWhile (fun c => c ≠ separator) ++ separator :: rest := by
  have hhead : head = separator := by
    have hfails := List.head_dropWhile_not (fun c => decide (c ≠ separator)) (l := text)
      (hdrop ▸ List.cons_ne_nil head rest)
    simp only [hdrop, List.head_cons] at hfails
    simpa using hfails
  subst hhead
  constructor
  · intro hmem
    have hkept := List.mem_takeWhile_imp hmem
    simp at hkept
  · rw [← hdrop]
    exact List.takeWhile_append_dropWhile.symm

end Separators

theorem insert_union_listed (value : β) (values : Set β) (listed : List β) :
    insert value values ∪ {other | other ∈ listed} =
      values ∪ {other | other ∈ value :: listed} := by
  ext other
  simp only [Set.mem_union, Set.mem_insert_iff, Set.mem_ofPred_eq, List.mem_cons]
  tauto

end KeyedLists

/-! ## Tables by the rows they hold -/

namespace KeyedTable

variable {α β κ : Type*} {key : α → κ}

/-- The table holds the rows of these values and no others. -/
def HoldsExactly (table : KeyedTable α κ key) (row : β → α) (values : Set β) : Prop :=
  ∀ other, other ∈ table.rows ↔ ∃ value ∈ values, other = row value

theorem holdsExactly_of_isEmpty {table : KeyedTable α κ key} (hempty : table.rows = [])
    (row : β → α) : table.HoldsExactly row ∅ := by
  intro other
  simp [hempty]

/-- The rows of a table that holds exactly the values of a list. -/
theorem HoldsExactly.perm {table : KeyedTable α κ key} {row : β → α} {values : List β}
    (hholds : table.HoldsExactly row {value | value ∈ values})
    (hkeys : (values.map fun value => key (row value)).Nodup) :
    table.rows.Perm (values.map row) := by
  have hnodup : (values.map row).Nodup := by
    apply List.Nodup.of_map key
    rwa [List.map_map]
  rw [List.perm_ext_iff_of_nodup (table.unique.of_map _) hnodup]
  intro other
  rw [hholds, List.mem_map]
  constructor
  · rintro ⟨value, hvalue, rfl⟩
    exact ⟨value, hvalue, rfl⟩
  · rintro ⟨value, hvalue, rfl⟩
    exact ⟨value, hvalue, rfl⟩

variable [DecidableEq κ]

theorem mem_foldl_put {table : KeyedTable α κ key} {items : List α}
    (hkeys : (items.map key).Nodup) {item : α} :
    item ∈ (items.foldl put table).rows ↔
      item ∈ items ∨ item ∈ table.rows ∧ ∀ write ∈ items, key write ≠ key item := by
  have hview := find?_overlay table ⟨items, hkeys⟩ (key item)
  change (items.foldl put table).find? (key item) = _ at hview
  rw [mem_rows_iff, hview, mem_rows_iff]
  cases hfind : find? ⟨items, hkeys⟩ (key item) with
  | none =>
      have habsent : ∀ write ∈ items, key write ≠ key item := by
        simpa [find?, List.find?_eq_none] using hfind
      have hfresh : item ∉ items := fun hmem => habsent item hmem rfl
      simpa [hfresh] using fun _ => habsent
  | some write =>
      have hmem : write ∈ items := mem_of_find? hfind
      have hkey := key_of_find? hfind
      rw [Option.some_or, Option.some.injEq]
      constructor
      · rintro rfl
        exact .inl hmem
      · rintro (hitem | ⟨_, hapart⟩)
        · exact List.inj_on_of_nodup_map hkeys hmem hitem hkey
        · exact absurd hkey (hapart write hmem)

/-- Writing the row of a value whose key no other value shares adds the value. -/
theorem HoldsExactly.put {table : KeyedTable α κ key} {row : β → α} {values : Set β}
    (hholds : table.HoldsExactly row values) {value : β}
    (hkey : ∀ other ∈ values, key (row other) = key (row value) → other = value) :
    (table.put (row value)).HoldsExactly row (insert value values) := by
  intro other
  have hkeys : ([row value].map key).Nodup := List.nodup_singleton _
  have hmem := @mem_foldl_put α κ key _ table [row value] hkeys other
  rw [List.foldl_cons, List.foldl_nil] at hmem
  rw [hmem, List.mem_singleton, hholds]
  constructor
  · rintro (rfl | ⟨⟨held, hheld, rfl⟩, _⟩)
    · exact ⟨value, Set.mem_insert _ _, rfl⟩
    · exact ⟨held, Set.mem_insert_of_mem _ hheld, rfl⟩
  · rintro ⟨held, hheld, rfl⟩
    by_cases hsame : held = value
    · exact .inl (by rw [hsame])
    · have hold := Set.mem_of_mem_insert_of_ne hheld hsame
      refine .inr ⟨⟨held, hold, rfl⟩, fun write hwrite hkeys => hsame ?_⟩
      rw [List.mem_singleton.mp hwrite] at hkeys
      exact hkey held hold hkeys.symm

end KeyedTable
