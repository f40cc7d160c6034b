import Mathlib.Tactic

/-!
# Stores that remember their writes

A store is the log of the writes it accepted together with the version they
lead to.  A write is accepted only if it applies to the current version, so
every prefix of the log has a version of its own, and a read that may be stale
sees one of these.
-/

variable {V W A : Type}

namespace VersionedStore

/-- The version after these writes, if each of them is accepted in its
turn. -/
def replay (apply : V → W → Option V) : V → List (A × W) → Option V
  | version, [] => some version
  | version, entry :: rest => (apply version entry.2).bind fun next => replay apply next rest

theorem replay_append {apply : V → W → Option V} (version : V) (first second : List (A × W)) :
    replay apply version (first ++ second) =
      (replay apply version first).bind fun middle => replay apply middle second := by
  induction first generalizing version with
  | nil => rfl
  | cons entry rest ih =>
      simp only [List.cons_append, replay]
      cases apply version entry.2 with
      | none => rfl
      | some next => exact ih next

/-- A version is reached through the version of every prefix. -/
theorem replay_split {apply : V → W → Option V} {version final : V} {first second : List (A × W)}
    (hreplay : replay apply version (first ++ second) = some final) :
    ∃ middle, replay apply version first = some middle ∧
      replay apply middle second = some final := by
  rw [replay_append] at hreplay
  exact Option.bind_eq_some_iff.mp hreplay

theorem replay_cons {apply : V → W → Option V} {version final : V} {entry : A × W}
    {rest : List (A × W)} (hreplay : replay apply version (entry :: rest) = some final) :
    ∃ next, apply version entry.2 = some next ∧ replay apply next rest = some final :=
  Option.bind_eq_some_iff.mp hreplay

/-- What every accepted write preserves holds after a replay. -/
theorem replay_preserves {apply : V → W → Option V} (P : V → Prop)
    (happly : ∀ version write next, P version → apply version write = some next → P next)
    {version final : V} {log : List (A × W)} (hversion : P version)
    (hreplay : replay apply version log = some final) : P final := by
  induction log generalizing version with
  | nil =>
      cases hreplay
      exact hversion
  | cons entry rest ih =>
      obtain ⟨next, hnext, hrest⟩ := replay_cons hreplay
      exact ih (happly version entry.2 next hversion hnext) hrest

/-- A preorder every accepted write respects is respected by a replay. -/
theorem replay_relates {apply : V → W → Option V} (R : V → V → Prop)
    (hrefl : ∀ version, R version version)
    (htrans : ∀ first second third, R first second → R second third → R first third)
    (happly : ∀ version write next, apply version write = some next → R version next)
    {version final : V} {log : List (A × W)}
    (hreplay : replay apply version log = some final) : R version final :=
  replay_preserves (fun next => R version next)
    (fun middle write next hmiddle hnext =>
      htrans version middle next hmiddle (happly middle write next hnext))
    (hrefl version) hreplay

end VersionedStore

/-- The accepted writes with their authors, and the version they lead to. -/
structure VersionedStore (V W A : Type) (apply : V → W → Option V) (origin : V) where
  log : List (A × W)
  current : V
  derived : VersionedStore.replay apply origin log = some current

namespace VersionedStore

variable {apply : V → W → Option V} {origin : V}

/-- The store before the first write. -/
def initial : VersionedStore V W A apply origin := ⟨[], origin, rfl⟩

/-- Accept a write that applies. -/
def record (store : VersionedStore V W A apply origin) (author : A) (write : W) (next : V)
    (happly : apply store.current write = some next) : VersionedStore V W A apply origin where
  log := store.log ++ [(author, write)]
  current := next
  derived := by
    rw [replay_append, store.derived]
    simp [replay, happly]

/-- The store has been at this version. -/
def Saw (store : VersionedStore V W A apply origin) (version : V) : Prop :=
  ∃ earlier later, store.log = earlier ++ later ∧ replay apply origin earlier = some version

variable {store : VersionedStore V W A apply origin}

theorem saw_current (store : VersionedStore V W A apply origin) : store.Saw store.current :=
  ⟨store.log, [], (List.append_nil _).symm, store.derived⟩

theorem saw_origin (store : VersionedStore V W A apply origin) : store.Saw origin :=
  ⟨[], store.log, rfl, rfl⟩

/-- What holds at the origin and is preserved by every accepted write holds of
every version the store has been at. -/
theorem Saw.preserves {version : V} (hsaw : store.Saw version) (P : V → Prop) (horigin : P origin)
    (happly : ∀ version write next, P version → apply version write = some next → P next) :
    P version := by
  obtain ⟨earlier, later, _, hearlier⟩ := hsaw
  exact replay_preserves P happly horigin hearlier

/-- An older version is related to the current one by every preorder that
every accepted write respects. -/
theorem Saw.relates {version : V} (hsaw : store.Saw version) (R : V → V → Prop)
    (hrefl : ∀ version, R version version)
    (htrans : ∀ first second third, R first second → R second third → R first third)
    (happly : ∀ version write next, apply version write = some next → R version next) :
    R version store.current := by
  obtain ⟨earlier, later, hlog, hearlier⟩ := hsaw
  have hderived := store.derived
  rw [hlog] at hderived
  obtain ⟨middle, hmiddle, hlater⟩ := replay_split hderived
  rw [hearlier] at hmiddle
  cases hmiddle
  exact replay_relates R hrefl htrans happly hlater

/-- A write of the log was accepted at the version of the writes before it. -/
theorem accepted {earlier later : List (A × W)} {entry : A × W}
    (hlog : store.log = earlier ++ entry :: later) :
    ∃ before after, replay apply origin earlier = some before ∧
      apply before entry.2 = some after ∧ replay apply after later = some store.current := by
  have hderived := store.derived
  rw [hlog] at hderived
  obtain ⟨before, hbefore, hrest⟩ := replay_split hderived
  obtain ⟨after, hafter, hlater⟩ := replay_cons hrest
  exact ⟨before, after, hbefore, hafter, hlater⟩

/-- A later log leads from the earlier version to the later one. -/
theorem replay_of_extends {later : VersionedStore V W A apply origin} {more : List (A × W)}
    (hlog : later.log = store.log ++ more) :
    replay apply store.current more = some later.current := by
  have hderived := later.derived
  rw [hlog] at hderived
  obtain ⟨middle, hmiddle, hmore⟩ := replay_split hderived
  rw [store.derived] at hmiddle
  cases hmiddle
  exact hmore

end VersionedStore
