import SeizaServer.KeyedTable
import SeizaServer.RecencyOrder

/-!
# The cache of satellite predictions

`PredictionCache::get` and `insert`: a table of results beside the order in which
its keys were used, the least recently used first.
-/

namespace SeizaServer.Satellites

open RecencyOrder

def maxCachedPredictions : ℕ := 256

/-- The job, the content hash of the catalog, and whether pixels were supplied. -/
abbrev CacheKey := String × String × Bool

structure PredictionCache (Result : Type) where
  entries : KeyedTable (CacheKey × Result) CacheKey Prod.fst
  order : List CacheKey

variable {Result : Type}

namespace PredictionCache

def empty : PredictionCache Result := ⟨.empty, []⟩

def get (cache : PredictionCache Result) (key : CacheKey) :
    Option Result × PredictionCache Result :=
  match cache.entries.find? key with
  | none => (none, cache)
  | some entry =>
      (some entry.2, ⟨cache.entries, (cache.order.filter fun existing => existing ≠ key) ++ [key]⟩)

/-- The loop that pops keys while too many are left. -/
def evict (entries : KeyedTable (CacheKey × Result) CacheKey Prod.fst) :
    List CacheKey → PredictionCache Result
  | [] => ⟨entries, []⟩
  | expired :: order =>
      if maxCachedPredictions < (expired :: order).length then
        evict (entries.erase expired) order
      else ⟨entries, expired :: order⟩

def insert (cache : PredictionCache Result) (key : CacheKey) (result : Result) :
    PredictionCache Result :=
  evict (cache.entries.put (key, result))
    ((cache.order.filter fun existing => existing ≠ key) ++ [key])

end PredictionCache

/-! ## Sequences of calls -/

inductive CacheCall (Result : Type) where
  | get (key : CacheKey)
  | insert (key : CacheKey) (result : Result)

namespace CacheCall

def key : CacheCall Result → CacheKey
  | .get key => key
  | .insert key _ => key

def after (cache : PredictionCache Result) : CacheCall Result → PredictionCache Result
  | .get key => (cache.get key).2
  | .insert key result => cache.insert key result

/-- An insert, or a get that finds its key. -/
def uses (cache : PredictionCache Result) : CacheCall Result → Bool
  | .get key => (cache.get key).1.isSome
  | .insert _ _ => true

end CacheCall

/-- The cache after calls on an empty one, and the keys they used, in order. -/
def replay (calls : List (CacheCall Result)) : PredictionCache Result × List CacheKey :=
  calls.foldl (fun state call =>
    (call.after state.1, if call.uses state.1 then state.2 ++ [call.key] else state.2))
    (.empty, [])

/-- The result a key was inserted with last. -/
def latestInsert (calls : List (CacheCall Result)) (key : CacheKey) : Option Result :=
  calls.foldl (fun latest call =>
    match call with
    | .get _ => latest
    | .insert inserted result => if inserted = key then some result else latest) none

/-! ## The cache keeps the keys used last -/

/-- The order is that of the last uses, and the table holds the latest results of
the keys in it. -/
structure PredictionCache.Exact (cache : PredictionCache Result) (used : List CacheKey)
    (latest : CacheKey → Option Result) : Prop where
  order_eq : cache.order = recent maxCachedPredictions used
  find?_eq : ∀ key, (cache.entries.find? key).map Prod.snd =
    if key ∈ cache.order then latest key else none
  inserted : ∀ key ∈ used, (latest key).isSome

namespace PredictionCache

theorem exact_empty : (empty : PredictionCache Result).Exact [] fun _ => none where
  order_eq := rfl
  find?_eq _ := rfl
  inserted := by simp

theorem evict_order (entries : KeyedTable (CacheKey × Result) CacheKey Prod.fst)
    (order : List CacheKey) :
    (evict entries order).order = order.rtake maxCachedPredictions := by
  induction order generalizing entries with
  | nil => exact (List.rtake_nil ..).symm
  | cons expired order ih =>
      unfold evict
      by_cases hfull : maxCachedPredictions < (expired :: order).length
      · have hkept : maxCachedPredictions ≤ order.length := Nat.le_of_lt_succ hfull
        have hlast : ([expired] ++ order).rtake maxCachedPredictions =
            order.rtake maxCachedPredictions := rtake_append hkept
        rw [if_pos hfull, ih, ← hlast]
        rfl
      · rw [if_neg hfull, rtake_eq_self (not_lt.mp hfull)]

/-- Keys are only removed. -/
theorem find?_of_evict {entries : KeyedTable (CacheKey × Result) CacheKey Prod.fst}
    {order : List CacheKey} {key : CacheKey} {entry : CacheKey × Result}
    (hfind : (evict entries order).entries.find? key = some entry) :
    entries.find? key = some entry := by
  induction order generalizing entries with
  | nil => exact hfind
  | cons expired order ih =>
      unfold evict at hfind
      split_ifs at hfind
      · have herased := ih hfind
        rw [KeyedTable.find?_erase] at herased
        split_ifs at herased
        exact herased
      · exact hfind

/-- The table keeps what the order keeps. -/
theorem evict_find? {order : List CacheKey} (hnodup : order.Nodup)
    {entries : KeyedTable (CacheKey × Result) CacheKey Prod.fst}
    (habsent : ∀ key ∉ order, entries.find? key = none) (key : CacheKey) :
    (evict entries order).entries.find? key =
      if key ∈ (evict entries order).order then entries.find? key else none := by
  induction order generalizing entries with
  | nil => exact (habsent key List.not_mem_nil).trans (if_neg List.not_mem_nil).symm
  | cons expired order ih =>
      obtain ⟨hfresh, hrest⟩ := List.nodup_cons.mp hnodup
      unfold evict
      by_cases hfull : maxCachedPredictions < (expired :: order).length
      · rw [if_pos hfull]
        have herased : ∀ other ∉ order, (entries.erase expired).find? other = none := by
          intro other hother
          rw [KeyedTable.find?_erase]
          by_cases hexpired : other = expired
          · rw [if_pos hexpired]
          · rw [if_neg hexpired]
            apply habsent
            simp [hother, hexpired]
        rw [ih hrest herased]
        by_cases hkept : key ∈ (evict (entries.erase expired) order).order
        · have hmem : key ∈ order := by
            rw [evict_order] at hkept
            exact List.mem_of_mem_drop hkept
          have hne : key ≠ expired := fun heq => hfresh (heq ▸ hmem)
          rw [if_pos hkept, if_pos hkept, KeyedTable.find?_erase, if_neg hne]
        · rw [if_neg hkept, if_neg hkept]
      · rw [if_neg hfull]
        by_cases hmem : key ∈ expired :: order
        · rw [if_pos hmem]
        · rw [if_neg hmem, habsent key hmem]

/-- What is found after an insert is the new result, or was there before. -/
theorem find?_insert {cache : PredictionCache Result} {key other : CacheKey} {result : Result}
    {entry : CacheKey × Result}
    (hfind : (cache.insert key result).entries.find? other = some entry) :
    entry = (key, result) ∧ other = key ∨
      other ≠ key ∧ cache.entries.find? other = some entry := by
  have hkept : (cache.entries.put (key, result)).find? other = some entry := find?_of_evict hfind
  rw [KeyedTable.find?_put] at hkept
  split_ifs at hkept with hkey
  · exact .inl ⟨(Option.some.inj hkept).symm, hkey.symm⟩
  · exact .inr ⟨Ne.symm hkey, hkept⟩

theorem Exact.mem_used {cache : PredictionCache Result} {used : List CacheKey}
    {latest : CacheKey → Option Result} (hexact : cache.Exact used latest) {key : CacheKey}
    (hmem : key ∈ cache.order) : key ∈ used := by
  rw [hexact.order_eq] at hmem
  exact List.mem_dedup.mp (List.mem_of_mem_drop hmem)

theorem Exact.isSome_find? {cache : PredictionCache Result} {used : List CacheKey}
    {latest : CacheKey → Option Result} (hexact : cache.Exact used latest) (key : CacheKey) :
    (cache.entries.find? key).isSome ↔ key ∈ cache.order := by
  rw [← Option.isSome_map (f := Prod.snd), hexact.find?_eq]
  by_cases hmem : key ∈ cache.order
  · simp [hmem, hexact.inserted key (hexact.mem_used hmem)]
  · simp [hmem]

/-- What `get` answers: the latest result of a key used recently enough. -/
theorem Exact.get_eq {cache : PredictionCache Result} {used : List CacheKey}
    {latest : CacheKey → Option Result} (hexact : cache.Exact used latest) (key : CacheKey) :
    (cache.get key).1 =
      if key ∈ recent maxCachedPredictions used then latest key else none := by
  rw [← hexact.order_eq, ← hexact.find?_eq, get]
  cases cache.entries.find? key <;> rfl

theorem Exact.get {cache : PredictionCache Result} {used : List CacheKey}
    {latest : CacheKey → Option Result} (hexact : cache.Exact used latest) (key : CacheKey) :
    (cache.get key).2.Exact (if (cache.get key).1.isSome then used ++ [key] else used)
      latest := by
  unfold PredictionCache.get
  cases hfind : cache.entries.find? key with
  | none => exact hexact
  | some entry =>
      have hmem : key ∈ cache.order := (hexact.isSome_find? key).mp (by rw [hfind]; rfl)
      have hrecent : key ∈ recent maxCachedPredictions used := hexact.order_eq ▸ hmem
      constructor
      · rw [Option.isSome_some, if_pos rfl, recent_snoc_of_mem hrecent, ← hexact.order_eq]
        rfl
      · intro other
        have hsame : other ∈ RecencyOrder.touch cache.order key ↔ other ∈ cache.order := by
          rw [mem_touch]
          exact ⟨fun h => h.elim id fun heq => heq ▸ hmem, Or.inl⟩
        exact (hexact.find?_eq other).trans (if_congr hsame.symm rfl rfl)
      · intro other hother
        rw [Option.isSome_some, if_pos rfl, List.mem_append, List.mem_singleton] at hother
        cases hother with
        | inl hused => exact hexact.inserted other hused
        | inr heq => exact heq ▸ hexact.inserted key (hexact.mem_used hmem)

theorem Exact.insert {cache : PredictionCache Result} {used : List CacheKey}
    {latest : CacheKey → Option Result} (hexact : cache.Exact used latest) (key : CacheKey)
    (result : Result) :
    (cache.insert key result).Exact (used ++ [key])
      fun other => if key = other then some result else latest other := by
  have hnodup : (RecencyOrder.touch cache.order key).Nodup := by
    rw [hexact.order_eq, RecencyOrder.touch, List.nodup_append]
    refine ⟨(nodup_recent _ used).filter _, List.nodup_singleton key, ?_⟩
    intro other hother last hlast
    rw [List.mem_singleton.mp hlast]
    exact of_decide_eq_true (List.mem_filter.mp hother).2
  have habsent : ∀ other ∉ RecencyOrder.touch cache.order key,
      (cache.entries.put (key, result)).find? other = none := by
    intro other hother
    rw [mem_touch, not_or] at hother
    have hnone : cache.entries.find? other = none := by
      rw [← Option.not_isSome_iff_eq_none, hexact.isSome_find?]
      exact hother.1
    rw [KeyedTable.find?_put, if_neg (Ne.symm hother.2), hnone]
  have horder : (cache.insert key result).order = recent maxCachedPredictions (used ++ [key]) := by
    rw [recent_snoc, ← hexact.order_eq]
    exact evict_order _ _
  constructor
  · exact horder
  · intro other
    have hfind := evict_find? hnodup habsent other
    by_cases hmem : other ∈ (cache.insert key result).order
    · rw [if_pos hmem]
      refine (congrArg (Option.map Prod.snd) (hfind.trans (if_pos hmem))).trans ?_
      rw [KeyedTable.find?_put]
      by_cases hkey : key = other
      · rw [if_pos hkey, if_pos hkey]
        rfl
      · rw [if_neg hkey, if_neg hkey, hexact.find?_eq, if_pos]
        rw [horder, recent_snoc, ← hexact.order_eq] at hmem
        have htouched := mem_touch.mp (List.mem_of_mem_drop hmem)
        exact htouched.resolve_right (Ne.symm hkey)
    · rw [if_neg hmem]
      exact congrArg (Option.map Prod.snd) (hfind.trans (if_neg hmem))
  · intro other hother
    by_cases hkey : key = other
    · rw [if_pos hkey]
      rfl
    · rw [if_neg hkey]
      rw [List.mem_append, List.mem_singleton] at hother
      exact hexact.inserted other (hother.resolve_right (Ne.symm hkey))

end PredictionCache

theorem replay_snoc (calls : List (CacheCall Result)) (call : CacheCall Result) :
    replay (calls ++ [call]) =
      (call.after (replay calls).1,
        if call.uses (replay calls).1 then (replay calls).2 ++ [call.key]
        else (replay calls).2) := by
  rw [replay, List.foldl_append]
  rfl

theorem exact_replay (calls : List (CacheCall Result)) :
    (replay calls).1.Exact (replay calls).2 (latestInsert calls) := by
  induction calls using List.reverseRecOn with
  | nil => exact PredictionCache.exact_empty
  | append_singleton calls call ih =>
      rw [replay_snoc]
      cases call with
      | get key =>
          have hlatest : latestInsert (calls ++ [.get key]) = latestInsert calls := by
            funext other
            rw [latestInsert, List.foldl_append]
            rfl
          rw [hlatest]
          exact ih.get key
      | insert key result =>
          have hlatest : latestInsert (calls ++ [.insert key result]) =
              fun other => if key = other then some result else latestInsert calls other := by
            funext other
            rw [latestInsert, List.foldl_append]
            rfl
          rw [hlatest]
          exact ih.insert key result

/-- After any calls on an empty cache: the order enumerates the keys of the table
without repetition, at most `maxCachedPredictions` of them, by the time of their
last insert or successful get; they are the keys used last of all that ever were
inserted, and each has the result of its latest insert. -/
theorem prediction_cache_lru (calls : List (CacheCall Result)) :
    let cache := (replay calls).1
    let used := (replay calls).2
    cache.order.Nodup ∧
      (∀ key, (cache.entries.find? key).isSome ↔ key ∈ cache.order) ∧
      cache.order.length ≤ maxCachedPredictions ∧
      (cache.order.Pairwise fun older newer => lastUse used older < lastUse used newer) ∧
      cache.order = used.dedup.rtake maxCachedPredictions ∧
      ∀ key, (cache.get key).1 = if key ∈ cache.order then latestInsert calls key else none := by
  have hexact := exact_replay calls
  have horder := hexact.order_eq
  refine ⟨?_, hexact.isSome_find?, ?_, ?_, horder, ?_⟩
  · rw [horder]
    exact nodup_recent _ _
  · rw [horder]
    exact length_recent_le _ _
  · rw [horder]
    exact pairwise_recent _ _
  · intro key
    rw [hexact.get_eq, ← horder]

end SeizaServer.Satellites
