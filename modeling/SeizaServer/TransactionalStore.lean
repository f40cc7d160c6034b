import SeizaServer.InteractionProgram
import Mathlib.Logic.Function.Basic

/-!
# Stores with conditional writes and transactions

A store maps keys to typed items.  A write has a condition on the item it is
about, and takes effect only if the condition holds.  A transaction is a list
of writes to different keys that take effect together or not at all.
-/

namespace TransactionalStore

variable {κ : Type} {Item : κ → Type} {Fault : Type}

/-- At each key an item of the key's type, or nothing. -/
abbrev Store (Item : κ → Type) := (key : κ) → Option (Item key)

/-- A conditional write of one item. -/
structure Write (Item : κ → Type) where
  key : κ
  condition : Option (Item key) → Bool
  effect : Option (Item key) → Option (Item key)

namespace Write

/-- Put an item, whatever is there. -/
def putIf (key : κ) (item : Item key) (condition : Option (Item key) → Bool) : Write Item :=
  ⟨key, condition, fun _ => some item⟩

/-- Put an item where there is none. -/
def putNew (key : κ) (item : Item key) : Write Item := putIf key item Option.isNone

/-- Update an item that is there. -/
def update (key : κ) (condition : Item key → Bool) (f : Item key → Item key) : Write Item :=
  ⟨key, fun found => found.any condition, Option.map f⟩

def delete (key : κ) : Write Item := ⟨key, fun _ => true, fun _ => none⟩

/-- Check an item without writing it. -/
def check (key : κ) (condition : Item key → Bool) : Write Item :=
  ⟨key, fun found => found.any condition, id⟩

def Holds (write : Write Item) (store : Store Item) : Prop :=
  write.condition (store write.key) = true

variable [DecidableEq κ]

def apply (write : Write Item) (store : Store Item) : Store Item :=
  Function.update store write.key (write.effect (store write.key))

@[simp] theorem apply_self (write : Write Item) (store : Store Item) :
    write.apply store write.key = write.effect (store write.key) :=
  Function.update_self _ _ _

theorem apply_of_ne (write : Write Item) (store : Store Item) {key : κ} (hne : key ≠ write.key) :
    write.apply store key = store key :=
  Function.update_of_ne hne _ _

end Write

variable [DecidableEq κ]

/-- The effect of all writes of a transaction. -/
def applyAll (writes : List (Write Item)) (store : Store Item) : Store Item :=
  writes.foldl (fun store write => write.apply store) store

theorem applyAll_of_not_mem {writes : List (Write Item)} {key : κ}
    (hkey : key ∉ writes.map Write.key) (store : Store Item) :
    applyAll writes store key = store key := by
  induction writes generalizing store with
  | nil => rfl
  | cons write rest ih =>
      rw [List.map_cons, List.mem_cons, not_or] at hkey
      change applyAll rest (write.apply store) key = store key
      rw [ih hkey.2, Write.apply_of_ne write store hkey.1]

/-- A write of a transaction takes its own effect on the item it is about. -/
theorem applyAll_of_mem {writes : List (Write Item)} (hkeys : (writes.map Write.key).Nodup)
    {write : Write Item} (hmem : write ∈ writes) (store : Store Item) :
    applyAll writes store write.key = write.effect (store write.key) := by
  induction writes generalizing store with
  | nil => cases hmem
  | cons first rest ih =>
      rw [List.map_cons, List.nodup_cons] at hkeys
      change applyAll rest (first.apply store) write.key = _
      rw [List.mem_cons] at hmem
      cases hmem with
      | inl hfirst =>
          subst hfirst
          rw [applyAll_of_not_mem hkeys.1, Write.apply_self]
      | inr hrest =>
          have hne : write.key ≠ first.key := by
            intro hsame
            exact hkeys.1 (List.mem_map.mpr ⟨write, hrest, hsame⟩)
          rw [ih hkeys.2 hrest, Write.apply_of_ne first store hne]

/-- An item that a transaction changed is the item of one of its writes. -/
theorem exists_of_applyAll_ne {writes : List (Write Item)} {store : Store Item} {key : κ}
    (hchanged : applyAll writes store key ≠ store key) : key ∈ writes.map Write.key := by
  by_contra hkey
  exact hchanged (applyAll_of_not_mem hkey store)

/-! ## Requests -/

/-- How a transaction went.  A cancellation gives one reason for each write,
none for a write that was not at fault. -/
inductive Outcome (Fault : Type) where
  | committed
  | canceled (reasons : List (Option String))
  | failed (cause : Fault)

/-- A consistent read, a conditional write that returns the new item, a
transaction, or a query of one part of the keys. -/
inductive StoreRequest (Item : κ → Type) where
  | get (key : κ)
  | writeItem (write : Write Item)
  | transact (writes : List (Write Item))
  | query (selected : κ → Bool)

@[reducible] def StoreRequest.Response (Fault : Type) : StoreRequest Item → Type
  | .get key => Except Fault (Option (Item key))
  | .writeItem write => Except Fault (Option (Option (Item write.key)))
  | .transact _ => Outcome Fault
  | .query _ => Except Fault (List ((key : κ) × Item key))

/-- The reason that names a failed condition. -/
def conditionalCheckFailed : String := "ConditionalCheckFailed"

/-- Only failed conditions are given as reasons. -/
def OnlyConditions (reasons : List (Option String)) : Prop :=
  ∀ reason ∈ reasons, reason = none ∨ reason = some "None" ∨ reason = some conditionalCheckFailed

instance (reasons : List (Option String)) : Decidable (OnlyConditions reasons) := by
  unfold OnlyConditions
  infer_instance

/-- How the store answers.  A request that fails may have taken effect. -/
inductive Serves (store : Store Item) :
    (r : StoreRequest Item) → r.Response Fault → Store Item → Prop where
  | got (key : κ) : Serves store (.get key) (.ok (store key)) store
  | notGot (key : κ) (cause : Fault) : Serves store (.get key) (.error cause) store
  | written (write : Write Item) (hholds : write.Holds store) :
      Serves store (.writeItem write) (.ok (some (write.effect (store write.key)))) (write.apply store)
  | refused (write : Write Item) (hrefused : ¬ write.Holds store) :
      Serves store (.writeItem write) (.ok none) store
  | lost (write : Write Item) (cause : Fault) (hholds : write.Holds store) :
      Serves store (.writeItem write) (.error cause) (write.apply store)
  | notWritten (write : Write Item) (cause : Fault) :
      Serves store (.writeItem write) (.error cause) store
  | committed (writes : List (Write Item)) (hkeys : (writes.map Write.key).Nodup)
      (hholds : ∀ write ∈ writes, write.Holds store) :
      Serves store (.transact writes) .committed (applyAll writes store)
  | canceled (writes : List (Write Item)) (reasons : List (Option String))
      (hreasons : OnlyConditions reasons → ∃ write ∈ writes, ¬ write.Holds store) :
      Serves store (.transact writes) (.canceled reasons) store
  | committedLost (writes : List (Write Item)) (cause : Fault)
      (hkeys : (writes.map Write.key).Nodup) (hholds : ∀ write ∈ writes, write.Holds store) :
      Serves store (.transact writes) (.failed cause) (applyAll writes store)
  | notCommitted (writes : List (Write Item)) (cause : Fault) :
      Serves store (.transact writes) (.failed cause) store
  | queried (selected : κ → Bool) (items : List ((key : κ) × Item key))
      (hitems : ∀ entry : (key : κ) × Item key,
        entry ∈ items ↔ selected entry.1 = true ∧ store entry.1 = some entry.2)
      (hnodup : (items.map Sigma.fst).Nodup) : Serves store (.query selected) (.ok items) store
  | notQueried (selected : κ → Bool) (cause : Fault) :
      Serves store (.query selected) (.error cause) store

/-- The writes of a request. -/
def StoreRequest.writes : StoreRequest Item → List (Write Item)
  | .get _ => []
  | .writeItem write => [write]
  | .transact writes => writes
  | .query _ => []

/-- A request leaves the store alone or carries out all its writes. -/
theorem Serves.effect {store after : Store Item} {r : StoreRequest Item} {reply : r.Response Fault}
    (hserves : Serves store r reply after) :
    after = store ∨ ((r.writes.map Write.key).Nodup ∧ (∀ write ∈ r.writes, write.Holds store) ∧
      after = applyAll r.writes store) := by
  have hsingle : ∀ write : Write Item, write.Holds store →
      ([write].map Write.key).Nodup ∧ (∀ other ∈ [write], other.Holds store) ∧
        write.apply store = applyAll [write] store := by
    intro write hholds
    refine ⟨List.nodup_singleton _, ?_, rfl⟩
    intro other hother
    rw [List.mem_singleton.mp hother]
    exact hholds
  cases hserves with
  | got key => exact .inl rfl
  | notGot key cause => exact .inl rfl
  | written write hholds => exact .inr (hsingle write hholds)
  | refused write hrefused => exact .inl rfl
  | lost write cause hholds => exact .inr (hsingle write hholds)
  | notWritten write cause => exact .inl rfl
  | committed writes hkeys hholds => exact .inr ⟨hkeys, hholds, rfl⟩
  | canceled writes reasons hreasons => exact .inl rfl
  | committedLost writes cause hkeys hholds => exact .inr ⟨hkeys, hholds, rfl⟩
  | notCommitted writes cause => exact .inl rfl
  | queried selected items hitems hnodup => exact .inl rfl
  | notQueried selected cause => exact .inl rfl

/-- What one request does to one item. -/
theorem Serves.item {store after : Store Item} {r : StoreRequest Item} {reply : r.Response Fault}
    (hserves : Serves store r reply after) (key : κ) :
    after key = store key ∨ ∃ write ∈ r.writes, ∃ hkey : write.key = key,
      write.Holds store ∧ after key = hkey ▸ write.effect (store write.key) := by
  cases hserves.effect with
  | inl hsame =>
      rw [hsame]
      exact .inl rfl
  | inr hwritten =>
      obtain ⟨hkeys, hholds, hafter⟩ := hwritten
      by_cases hmem : key ∈ r.writes.map Write.key
      · obtain ⟨write, hwrite, hkey⟩ := List.mem_map.mp hmem
        subst hkey
        right
        refine ⟨write, hwrite, rfl, hholds write hwrite, ?_⟩
        rw [hafter]
        exact applyAll_of_mem hkeys hwrite store
      · left
        rw [hafter]
        exact applyAll_of_not_mem hmem store

/-- A property of the store that every effective write of a request keeps one
after the other is kept by the request. -/
theorem Serves.preserves {P : Store Item → Prop} {store after : Store Item} {r : StoreRequest Item}
    {reply : r.Response Fault} (hserves : Serves store r reply after) (hstore : P store)
    (hall : (r.writes.map Write.key).Nodup → (∀ write ∈ r.writes, write.Holds store) →
      P (applyAll r.writes store)) : P after := by
  cases hserves.effect with
  | inl hsame =>
      rw [hsame]
      exact hstore
  | inr hwritten =>
      rw [hwritten.2.2]
      exact hall hwritten.1 hwritten.2.1

/-- The answers to a client that nothing disturbs; it asks no queries. -/
def answerUndisturbed (cause : Fault) (store : Store Item) :
    (r : StoreRequest Item) → Except Fault (Store Item × r.Response Fault)
  | .get key => .ok (store, .ok (store key))
  | .writeItem write =>
      if write.condition (store write.key) then
        .ok (write.apply store, .ok (some (write.effect (store write.key))))
      else .ok (store, .ok none)
  | .transact writes =>
      if (writes.map Write.key).Nodup ∧ ∀ write ∈ writes, write.condition (store write.key) = true then
        .ok (applyAll writes store, .committed)
      else .error cause
  | .query _ => .error cause

theorem serves_answerUndisturbed {cause : Fault} {store after : Store Item} {r : StoreRequest Item}
    {reply : r.Response Fault} (hanswer : answerUndisturbed cause store r = .ok (after, reply)) :
    Serves store r reply after := by
  cases r with
  | get key =>
      cases hanswer
      exact .got key
  | writeItem write =>
      simp only [answerUndisturbed] at hanswer
      split at hanswer
      · rename_i hholds
        cases hanswer
        exact .written write hholds
      · rename_i hrefused
        cases hanswer
        exact .refused write hrefused
  | transact writes =>
      simp only [answerUndisturbed] at hanswer
      split at hanswer
      · rename_i hcommitted
        cases hanswer
        exact .committed writes hcommitted.1 hcommitted.2
      · cases hanswer
  | query selected => cases hanswer

end TransactionalStore
