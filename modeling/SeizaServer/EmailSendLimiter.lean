import Mathlib
import SeizaServer.KeyedTable
import SeizaServer.NearestDouble
import SeizaServer.SlidingWindow

/-!
# The limiter of sign-in mail

The three deques of the limiter, its check with the two sweeps, and the log of
all accepted sends as specification.  Instants and durations are nanoseconds;
the seconds reported to a rejected caller go through a double.
-/

namespace SeizaServer

open SlidingWindow

/-! ## The limiter -/

structure EmailSendRateLimits where
  sourceWindow : ℕ
  sourceBudget : UInt32
  sourceDailyWindow : ℕ
  sourceDailyBudget : UInt32
  recipientCooldown : ℕ
  recipientHourWindow : ℕ
  recipientHourLimit : ℕ+
  recipientDailyWindow : ℕ
  recipientDailyLimit : ℕ+
  globalHourWindow : ℕ
  globalHourLimit : ℕ+
  globalDailyWindow : ℕ
  globalDailyLimit : ℕ+

def seconds (count : ℕ) : ℕ := count * 10 ^ 9

/-- `EmailSendRateLimits::default`. -/
def EmailSendRateLimits.default : EmailSendRateLimits where
  sourceWindow := seconds (15 * 60)
  sourceBudget := 3
  sourceDailyWindow := seconds (24 * 60 * 60)
  sourceDailyBudget := 10
  recipientCooldown := seconds 60
  recipientHourWindow := seconds (60 * 60)
  recipientHourLimit := ⟨3, Nat.succ_pos _⟩
  recipientDailyWindow := seconds (24 * 60 * 60)
  recipientDailyLimit := ⟨10, Nat.succ_pos _⟩
  globalHourWindow := seconds (60 * 60)
  globalHourLimit := ⟨100, Nat.succ_pos _⟩
  globalDailyWindow := seconds (24 * 60 * 60)
  globalDailyLimit := ⟨1000, Nat.succ_pos _⟩

structure SourceSend where
  sentAt : ℕ
  recipient : String
  windowCost : UInt32
  dailyCost : UInt32
  deriving DecidableEq

/-- One entry of a map from identities to their deques. -/
structure Bucket (ε : Type) where
  identity : String
  events : List ε
  deriving DecidableEq

abbrev Buckets (ε : Type) := KeyedTable (Bucket ε) String Bucket.identity

structure EmailSendRateState where
  sources : Buckets SourceSend
  recipients : Buckets ℕ
  global : List ℕ

def EmailSendRateState.empty : EmailSendRateState := ⟨.empty, .empty, []⟩

def sweepThresholdBuckets : ℕ := 10000

namespace Buckets

variable {ε : Type}

/-- The deque of an identity, empty if it has none. -/
def events (buckets : Buckets ε) (identity : String) : List ε :=
  ((buckets.find? identity).map Bucket.events).getD []

/-- Apply a function to the deque of one identity, if it has one. -/
def modifyEvents (buckets : Buckets ε) (identity : String) (f : List ε → List ε) : Buckets ε :=
  buckets.modify (fun bucket => bucket.identity = identity)
    fun bucket => { bucket with events := f bucket.events }

/-- `entry(identity).or_default()`. -/
def orDefault (buckets : Buckets ε) (identity : String) : Buckets ε :=
  buckets.upsert ⟨identity, []⟩ fun bucket => bucket

/-- Prune every deque and drop those that become empty. -/
def retainRecent (buckets : Buckets ε) (f : List ε → List ε) : Buckets ε :=
  (buckets.modify (fun _ => true) fun bucket => { bucket with events := f bucket.events }).filter
    fun bucket => !bucket.events.isEmpty

end Buckets

/-- `as_secs_f64().ceil().max(1.0) as u64`. -/
def secondsUntilExpiry (event now window : ℕ) : ℕ :=
  min (max (NearestDouble.ceil (NearestDouble.ofNanoseconds (window - (now - event)))) 1)
    (2 ^ 64 - 1)

def recipientCost (events : List SourceSend) (recipient : String) (now window : ℕ) : UInt32 :=
  let active := recent SourceSend.sentAt now window events
  if active.any fun event => event.recipient = recipient then 1
  else if active.isEmpty then 1
  else 2

/-- `u32::saturating_add`. -/
def saturatingAdd (first second : UInt32) : UInt32 :=
  if first.toNat + second.toNat < 2 ^ 32 then first + second else 4294967295

/-- The first event with which enough cost has expired. -/
def releasedBy (cost : SourceSend → UInt32) (needed : UInt32) :
    UInt32 → List SourceSend → Option SourceSend
  | _, [] => none
  | released, event :: rest =>
      if needed ≤ released + cost event then some event
      else releasedBy cost needed (released + cost event) rest

def weightedRetryAfter (events : List SourceSend) (now window : ℕ) (budget incomingCost : UInt32)
    (cost : SourceSend → UInt32) : Option ℕ :=
  let active := recent SourceSend.sentAt now window events
  let total := (active.map cost).sum
  if saturatingAdd total incomingCost ≤ budget then none
  else
    match releasedBy cost (saturatingAdd total incomingCost - budget) 0 active with
    | some event => some (secondsUntilExpiry event.sentAt now window)
    | none => some (max (window / 10 ^ 9) 1)

/-- The event that is read exists, as the limit is positive. -/
def countRetryAfter (events : List ℕ) (now window limit : ℕ) : Option ℕ :=
  let active := recent id now window events
  if active.length < limit then none
  else some (secondsUntilExpiry (active.getD (active.length + 1 - limit - 1) now) now window)

namespace EmailSendRateLimits

variable (limits : EmailSendRateLimits)

def sourceRetention : ℕ := max limits.sourceWindow limits.sourceDailyWindow

def recipientRetention : ℕ :=
  max (max limits.recipientCooldown limits.recipientHourWindow) limits.recipientDailyWindow

def globalRetention : ℕ := max limits.globalHourWindow limits.globalDailyWindow

def sweep (state : EmailSendRateState) (source recipient : String) (now : ℕ) :
    EmailSendRateState :=
  let pruneSource := prune SourceSend.sentAt now limits.sourceRetention
  let pruneRecipient := prune id now limits.recipientRetention
  let sources := state.sources.modifyEvents source pruneSource
  let recipients := state.recipients.modifyEvents recipient pruneRecipient
  { sources :=
      if sweepThresholdBuckets ≤ sources.rows.length ∧ sources.find? source = none then
        sources.retainRecent pruneSource
      else sources
    recipients :=
      if sweepThresholdBuckets ≤ recipients.rows.length ∧ recipients.find? recipient = none then
        recipients.retainRecent pruneRecipient
      else recipients
    global := prune id now limits.globalRetention state.global }

/-- What each of the seven budgets says to a send with these costs. -/
def retryAfter (sourceEvents : List SourceSend) (recipientEvents global : List ℕ) (now : ℕ)
    (windowCost dailyCost : UInt32) : List (Option ℕ) :=
  [weightedRetryAfter sourceEvents now limits.sourceWindow limits.sourceBudget windowCost
      SourceSend.windowCost,
    weightedRetryAfter sourceEvents now limits.sourceDailyWindow limits.sourceDailyBudget dailyCost
      SourceSend.dailyCost,
    countRetryAfter recipientEvents now limits.recipientCooldown 1,
    countRetryAfter recipientEvents now limits.recipientHourWindow limits.recipientHourLimit,
    countRetryAfter recipientEvents now limits.recipientDailyWindow limits.recipientDailyLimit,
    countRetryAfter global now limits.globalHourWindow limits.globalHourLimit,
    countRetryAfter global now limits.globalDailyWindow limits.globalDailyLimit]

/-- `check_at`: accept the send, or say after how many seconds to retry. -/
def checkAt (state : EmailSendRateState) (source recipient : String) (now : ℕ) :
    EmailSendRateState × Except ℕ Unit :=
  let swept := limits.sweep state source recipient now
  let sources := swept.sources.orDefault source
  let recipients := swept.recipients.orDefault recipient
  let windowCost := recipientCost (sources.events source) recipient now limits.sourceWindow
  let dailyCost := recipientCost (sources.events source) recipient now limits.sourceDailyWindow
  match (limits.retryAfter (sources.events source) (recipients.events recipient) swept.global now
      windowCost dailyCost).reduceOption.max? with
  | some seconds => (⟨sources, recipients, swept.global⟩, .error seconds)
  | none =>
      (⟨sources.modifyEvents source (· ++ [⟨now, recipient, windowCost, dailyCost⟩]),
        recipients.modifyEvents recipient (· ++ [now]), swept.global ++ [now]⟩, .ok ())

end EmailSendRateLimits

/-- One call of `check_at`. -/
structure SendAttempt where
  source : String
  recipient : String
  now : ℕ

/-- The state after these calls, and which of them were accepted. -/
def EmailSendRateLimits.decisions (limits : EmailSendRateLimits) :
    EmailSendRateState → List SendAttempt → List Bool
  | _, [] => []
  | state, attempt :: rest =>
      let step := limits.checkAt state attempt.source attempt.recipient attempt.now
      step.2.isOk :: limits.decisions step.1 rest

/-! ## The specification -/

/-- An accepted send with the two costs it was charged. -/
structure Send where
  sentAt : ℕ
  source : String
  recipient : String
  windowCost : ℕ
  dailyCost : ℕ

/-- A send to a recipient the source already writes to, or from a source that
writes to nobody, costs one, any other send two. -/
def sendCost (log : List Send) (source recipient : String) (now window : ℕ) : ℕ :=
  let active := recent Send.sentAt now window log
  if (∃ send ∈ active, send.source = source ∧ send.recipient = recipient) ∨
      ¬ ∃ send ∈ active, send.source = source then 1
  else 2

/-- The sends of one source. -/
def fromSource (log : List Send) (source : String) : List Send :=
  log.filter fun send => send.source = source

/-- The sends to one recipient. -/
def toRecipient (log : List Send) (recipient : String) : List Send :=
  log.filter fun send => send.recipient = recipient

/-- The total cost of the recent sends. -/
def windowTotal (cost : Send → ℕ) (now window : ℕ) (log : List Send) : ℕ :=
  total cost (recent Send.sentAt now window log)

namespace EmailSendRateLimits

variable (limits : EmailSendRateLimits)

/-- The charge a send would be accepted with. -/
def charge (log : List Send) (attempt : SendAttempt) : Send where
  sentAt := attempt.now
  source := attempt.source
  recipient := attempt.recipient
  windowCost := sendCost log attempt.source attempt.recipient attempt.now limits.sourceWindow
  dailyCost := sendCost log attempt.source attempt.recipient attempt.now limits.sourceDailyWindow

/-- All seven sums stay within their limits. -/
abbrev Permits (log : List Send) (send : Send) : Prop :=
  windowTotal Send.windowCost send.sentAt limits.sourceWindow (fromSource log send.source) +
      send.windowCost ≤ limits.sourceBudget.toNat ∧
  windowTotal Send.dailyCost send.sentAt limits.sourceDailyWindow (fromSource log send.source) +
      send.dailyCost ≤ limits.sourceDailyBudget.toNat ∧
  windowTotal (fun _ => 1) send.sentAt limits.recipientCooldown
      (toRecipient log send.recipient) + 1 ≤ 1 ∧
  windowTotal (fun _ => 1) send.sentAt limits.recipientHourWindow
      (toRecipient log send.recipient) + 1 ≤ limits.recipientHourLimit ∧
  windowTotal (fun _ => 1) send.sentAt limits.recipientDailyWindow
      (toRecipient log send.recipient) + 1 ≤ limits.recipientDailyLimit ∧
  windowTotal (fun _ => 1) send.sentAt limits.globalHourWindow log + 1 ≤ limits.globalHourLimit ∧
  windowTotal (fun _ => 1) send.sentAt limits.globalDailyWindow log + 1 ≤ limits.globalDailyLimit

/-- The log after one more call. -/
def logged (log : List Send) (attempt : SendAttempt) : List Send :=
  if limits.Permits log (limits.charge log attempt) then log ++ [limits.charge log attempt] else log

/-- Which calls the specification accepts. -/
def specification : List Send → List SendAttempt → List Bool
  | _, [] => []
  | log, attempt :: rest =>
      decide (limits.Permits log (limits.charge log attempt)) ::
        specification (limits.logged log attempt) rest

/-- The accepted sends of a sequence of calls. -/
def accepted (attempts : List SendAttempt) : List Send :=
  attempts.foldl limits.logged []

end EmailSendRateLimits

/-! ## Deques -/

namespace Buckets

variable {ε : Type} {buckets : Buckets ε} {f : List ε → List ε}

theorem events_modifyEvents (hempty : f [] = []) (identity other : String) :
    (buckets.modifyEvents identity f).events other =
      if identity = other then f (buckets.events other) else buckets.events other := by
  unfold events modifyEvents
  rw [KeyedTable.find?_modify]
  cases hfind : buckets.find? other with
  | none => simp [hempty]
  | some bucket =>
      have hidentity := KeyedTable.key_of_find? hfind
      by_cases hsame : identity = other
      · simp [hidentity, hsame]
      · have hother : bucket.identity ≠ identity := fun h => hsame (h.symm.trans hidentity)
        simp [hother, hsame]

theorem events_modifyEvents_of_isSome {identity : String}
    (hpresent : (buckets.find? identity).isSome) (other : String) :
    (buckets.modifyEvents identity f).events other =
      if identity = other then f (buckets.events other) else buckets.events other := by
  unfold events modifyEvents
  rw [KeyedTable.find?_modify]
  by_cases hsame : identity = other
  · subst hsame
    obtain ⟨bucket, hfind⟩ := Option.isSome_iff_exists.mp hpresent
    have hidentity := KeyedTable.key_of_find? hfind
    simp [hfind, hidentity]
  · cases hfind : buckets.find? other with
    | none => simp [hsame]
    | some bucket =>
        have hidentity := KeyedTable.key_of_find? hfind
        have hother : bucket.identity ≠ identity := fun h => hsame (h.symm.trans hidentity)
        simp [hother, hsame]

theorem find?_orDefault (identity : String) :
    ((buckets.orDefault identity).find? identity).isSome := by
  unfold orDefault
  rw [KeyedTable.find?_upsert]
  simp

theorem events_orDefault (identity other : String) :
    (buckets.orDefault identity).events other = buckets.events other := by
  unfold events orDefault
  rw [KeyedTable.find?_upsert]
  by_cases hsame : identity = other
  · rw [if_pos hsame]
    cases buckets.find? other <;> rfl
  · rw [if_neg hsame]

theorem events_retainRecent (hempty : f [] = []) (identity : String) :
    (buckets.retainRecent f).events identity = f (buckets.events identity) := by
  unfold events retainRecent
  rw [KeyedTable.find?_filter, KeyedTable.find?_modify]
  cases hfind : buckets.find? identity with
  | none => simp [hempty]
  | some bucket =>
      cases hevents : f bucket.events with
      | nil => simp [hevents, Option.filter_some]
      | cons event rest => simp [hevents, Option.filter_some]

end Buckets

/-! ## What the limiter remembers -/

/-- An accepted send as the deque of its source holds it. -/
def Send.sourceSend (send : Send) : SourceSend where
  sentAt := send.sentAt
  recipient := send.recipient
  windowCost := UInt32.ofNat send.windowCost
  dailyCost := UInt32.ofNat send.dailyCost

/-- The deques are what is left of the log. -/
structure Remembers (limits : EmailSendRateLimits) (now : ℕ) (sources : Buckets SourceSend)
    (recipients : Buckets ℕ) (global : List ℕ) (log : List Send) : Prop where
  sources : ∀ source, Forgets SourceSend.sentAt now limits.sourceRetention
    (sources.events source) ((fromSource log source).map Send.sourceSend)
  recipients : ∀ recipient, Forgets id now limits.recipientRetention
    (recipients.events recipient) ((toRecipient log recipient).map Send.sentAt)
  global : Forgets id now limits.globalRetention global (log.map Send.sentAt)

section Remembering

variable {limits : EmailSendRateLimits} {now after window : ℕ} {sources : Buckets SourceSend}
  {recipients : Buckets ℕ} {global : List ℕ} {log : List Send} {source recipient : String}

theorem remembers_empty : Remembers limits now .empty .empty [] [] := by
  constructor
  · intro source
    exact .refl []
  · intro recipient
    exact .refl []
  · exact .refl []

theorem Remembers.later (hremembers : Remembers limits now sources recipients global log)
    (hafter : now ≤ after) : Remembers limits after sources recipients global log := by
  constructor
  · intro source
    exact (hremembers.sources source).later hafter
  · intro recipient
    exact (hremembers.recipients recipient).later hafter
  · exact hremembers.global.later hafter

/-- Pruned deques of one identity, and of all if there are too many. -/
theorem forgets_sweep {ε : Type} {stamp : ε → ℕ} {retention : ℕ} {buckets : Buckets ε}
    {kept : String → List ε} (identity : String)
    (hforgets : ∀ other, Forgets stamp now retention (buckets.events other) (kept other))
    (other : String) :
    Forgets stamp now retention
      ((if sweepThresholdBuckets ≤
            (buckets.modifyEvents identity (prune stamp now retention)).rows.length ∧
          (buckets.modifyEvents identity (prune stamp now retention)).find? identity = none then
        (buckets.modifyEvents identity (prune stamp now retention)).retainRecent
          (prune stamp now retention)
      else buckets.modifyEvents identity (prune stamp now retention)).events other)
      (kept other) := by
  have hone : Forgets stamp now retention
      ((buckets.modifyEvents identity (prune stamp now retention)).events other) (kept other) := by
    rw [Buckets.events_modifyEvents rfl]
    split_ifs
    · exact (hforgets other).prune
    · exact hforgets other
  split_ifs
  · rw [Buckets.events_retainRecent rfl]
    exact hone.prune
  · exact hone

theorem Remembers.sweep {state : EmailSendRateState}
    (hremembers : Remembers limits now state.sources state.recipients state.global log)
    (source recipient : String) :
    Remembers limits now (limits.sweep state source recipient now).sources
      (limits.sweep state source recipient now).recipients
      (limits.sweep state source recipient now).global log := by
  constructor
  · exact forgets_sweep source hremembers.sources
  · exact forgets_sweep recipient hremembers.recipients
  · exact hremembers.global.prune

theorem Remembers.orDefault (hremembers : Remembers limits now sources recipients global log)
    (source recipient : String) :
    Remembers limits now (sources.orDefault source) (recipients.orDefault recipient) global
      log := by
  constructor
  · intro other
    rw [Buckets.events_orDefault]
    exact hremembers.sources other
  · intro other
    rw [Buckets.events_orDefault]
    exact hremembers.recipients other
  · exact hremembers.global

/-- An accepted send is pushed to all three deques. -/
theorem Remembers.snoc (hremembers : Remembers limits now sources recipients global log)
    (send : Send) (hsource : (sources.find? send.source).isSome)
    (hrecipient : (recipients.find? send.recipient).isSome) :
    Remembers limits now (sources.modifyEvents send.source (· ++ [send.sourceSend]))
      (recipients.modifyEvents send.recipient (· ++ [send.sentAt])) (global ++ [send.sentAt])
      (log ++ [send]) := by
  constructor
  · intro other
    rw [Buckets.events_modifyEvents_of_isSome hsource, fromSource, List.filter_append,
      List.map_append]
    by_cases hother : send.source = other
    · have hlast : [send].filter (fun send => send.source = other) = [send] := by simp [hother]
      rw [if_pos hother, hlast]
      exact (hremembers.sources other).snoc send.sourceSend
    · have hlast : [send].filter (fun send => send.source = other) = [] := by simp [hother]
      rw [if_neg hother, hlast, List.map_nil, List.append_nil]
      exact hremembers.sources other
  · intro other
    rw [Buckets.events_modifyEvents_of_isSome hrecipient, toRecipient, List.filter_append,
      List.map_append]
    by_cases hother : send.recipient = other
    · have hlast : [send].filter (fun send => send.recipient = other) = [send] := by
        simp [hother]
      rw [if_pos hother, hlast]
      exact (hremembers.recipients other).snoc send.sentAt
    · have hlast : [send].filter (fun send => send.recipient = other) = [] := by simp [hother]
      rw [if_neg hother, hlast, List.map_nil, List.append_nil]
      exact hremembers.recipients other
  · rw [List.map_append]
    exact hremembers.global.snoc send.sentAt

/-! ### What it sees -/

theorem recent_fromSource (log : List Send) (source : String) (now window : ℕ) :
    recent Send.sentAt now window (fromSource log source) =
      (recent Send.sentAt now window log).filter fun send => send.source = source := by
  unfold recent fromSource
  rw [List.filter_filter, List.filter_filter]
  apply List.filter_congr
  intro send _
  exact Bool.and_comm _ _

theorem Remembers.recent_sources
    (hremembers : Remembers limits now sources recipients global log) (source : String)
    (hwindow : window ≤ limits.sourceRetention) :
    recent SourceSend.sentAt now window (sources.events source) =
      (recent Send.sentAt now window (fromSource log source)).map Send.sourceSend := by
  rw [recent_of_forgets (hremembers.sources source) hwindow, recent_map]
  rfl

theorem Remembers.length_recipients
    (hremembers : Remembers limits now sources recipients global log) (recipient : String)
    (hwindow : window ≤ limits.recipientRetention) :
    (recent id now window (recipients.events recipient)).length =
      windowTotal (fun _ => 1) now window (toRecipient log recipient) := by
  rw [recent_of_forgets (hremembers.recipients recipient) hwindow, recent_map, List.length_map]
  unfold windowTotal total
  rw [List.map_const', List.sum_replicate, smul_eq_mul, mul_one]
  rfl

theorem Remembers.length_global (hremembers : Remembers limits now sources recipients global log)
    (hwindow : window ≤ limits.globalRetention) :
    (recent id now window global).length = windowTotal (fun _ => 1) now window log := by
  rw [recent_of_forgets hremembers.global hwindow, recent_map, List.length_map]
  unfold windowTotal total
  rw [List.map_const', List.sum_replicate, smul_eq_mul, mul_one]
  rfl

/-- The cost computed from the deque is the one computed from the log. -/
theorem Remembers.recipientCost_eq
    (hremembers : Remembers limits now sources recipients global log) (source recipient : String)
    (hwindow : window ≤ limits.sourceRetention) :
    recipientCost (sources.events source) recipient now window =
      UInt32.ofNat (sendCost log source recipient now window) := by
  have hrecent := hremembers.recent_sources source hwindow
  rw [recent_fromSource] at hrecent
  unfold recipientCost sendCost
  simp only [hrecent]
  by_cases hto : ∃ send ∈ recent Send.sentAt now window log,
      send.source = source ∧ send.recipient = recipient
  · obtain ⟨send, hmem, hsource, hrecipient⟩ := hto
    have hany : (((recent Send.sentAt now window log).filter fun send =>
        send.source = source).map Send.sourceSend).any (fun event =>
          event.recipient = recipient) = true := by
      rw [List.any_eq_true]
      refine ⟨send.sourceSend, List.mem_map_of_mem ?_, decide_eq_true hrecipient⟩
      rw [List.mem_filter]
      exact ⟨hmem, by simpa using hsource⟩
    rw [if_pos hany, if_pos (.inl ⟨send, hmem, hsource, hrecipient⟩)]
    rfl
  · have hany : ¬ (((recent Send.sentAt now window log).filter fun send =>
        send.source = source).map Send.sourceSend).any (fun event =>
          event.recipient = recipient) = true := by
      intro hcontra
      rw [List.any_eq_true] at hcontra
      obtain ⟨event, hmem, hrecipient⟩ := hcontra
      obtain ⟨send, hsend, heq⟩ := List.mem_map.mp hmem
      rw [List.mem_filter, decide_eq_true_eq] at hsend
      rw [← heq, decide_eq_true_eq] at hrecipient
      exact hto ⟨send, hsend.1, hsend.2, hrecipient⟩
    rw [if_neg hany]
    by_cases hfrom : ∃ send ∈ recent Send.sentAt now window log, send.source = source
    · have hactive : ¬ (((recent Send.sentAt now window log).filter fun send =>
          send.source = source).map Send.sourceSend).isEmpty = true := by
        obtain ⟨send, hmem, hsource⟩ := hfrom
        rw [List.isEmpty_iff, List.map_eq_nil_iff, List.filter_eq_nil_iff]
        intro hnone
        exact hnone send hmem (by simpa using hsource)
      have hneither : ¬ ((∃ send ∈ recent Send.sentAt now window log,
          send.source = source ∧ send.recipient = recipient) ∨
            ¬ ∃ send ∈ recent Send.sentAt now window log, send.source = source) := by
        intro hcontra
        cases hcontra with
        | inl hsome => exact hto hsome
        | inr hnone => exact hnone hfrom
      rw [if_neg hactive, if_neg hneither]
      rfl
    · have hactive : (((recent Send.sentAt now window log).filter fun send =>
          send.source = source).map Send.sourceSend).isEmpty = true := by
        rw [List.isEmpty_iff, List.map_eq_nil_iff, List.filter_eq_nil_iff]
        intro send hmem hsource
        exact hfrom ⟨send, hmem, by simpa using hsource⟩
      rw [if_pos hactive, if_pos (.inr hfrom)]
      rfl

theorem sendCost_le (log : List Send) (source recipient : String) (now window : ℕ) :
    sendCost log source recipient now window ≤ 2 := by
  unfold sendCost
  simp only
  split_ifs <;> omega

end Remembering

/-! ### What the budgets say -/

theorem toNat_saturatingAdd (first second : UInt32) :
    (saturatingAdd first second).toNat = min (first.toNat + second.toNat) (2 ^ 32 - 1) := by
  have hfirst := first.toNat_lt
  have hsecond := second.toNat_lt
  unfold saturatingAdd
  split_ifs with hfits
  · rw [UInt32.toNat_add]
    omega
  · have hmax : (4294967295 : UInt32).toNat = 2 ^ 32 - 1 := rfl
    omega

theorem toNat_sum {costs : List ℕ} (hsum : costs.sum < 2 ^ 32) :
    ((costs.map UInt32.ofNat).sum).toNat = costs.sum := by
  induction costs with
  | nil => rfl
  | cons cost rest ih =>
      rw [List.sum_cons] at hsum
      have hrest := ih (by omega)
      rw [List.map_cons, List.sum_cons, UInt32.toNat_add, hrest, UInt32.toNat_ofNat',
        List.sum_cons]
      omega

theorem weightedRetryAfter_eq_none {events : List SourceSend} {log : List Send} {now window : ℕ}
    {incoming : ℕ} (budget : UInt32) (cost : SourceSend → UInt32) (charged : Send → ℕ)
    (hcost : ∀ send : Send, cost send.sourceSend = UInt32.ofNat (charged send))
    (hrecent : recent SourceSend.sentAt now window events =
      (recent Send.sentAt now window log).map Send.sourceSend)
    (htotal : windowTotal charged now window log < 2 ^ 32 ∨ budget.toNat = 2 ^ 32 - 1)
    (hincoming : incoming ≤ 2) :
    weightedRetryAfter events now window budget (UInt32.ofNat incoming) cost = none ↔
      min (windowTotal charged now window log + incoming) (2 ^ 32 - 1) ≤ budget.toNat := by
  have hcosts : (recent SourceSend.sentAt now window events).map cost =
      ((recent Send.sentAt now window log).map charged).map UInt32.ofNat := by
    rw [hrecent, List.map_map, List.map_map]
    apply List.map_congr_left
    intro send _
    exact hcost send
  have hadded : (saturatingAdd ((recent SourceSend.sentAt now window events).map cost).sum
      (UInt32.ofNat incoming)).toNat ≤ budget.toNat ↔
        min (windowTotal charged now window log + incoming) (2 ^ 32 - 1) ≤ budget.toNat := by
    rw [toNat_saturatingAdd]
    cases htotal with
    | inl htotal =>
        rw [hcosts, toNat_sum htotal, UInt32.toNat_ofNat']
        change min (windowTotal charged now window log + _) _ ≤ _ ↔ _
        rw [Nat.mod_eq_of_lt (by omega)]
    | inr hmax =>
        rw [hmax]
        exact iff_of_true (min_le_right _ _) (min_le_right _ _)
  unfold weightedRetryAfter
  simp only [UInt32.le_iff_toNat_le, ← hadded]
  constructor
  · intro hnone
    split at hnone
    · assumption
    · split at hnone <;> cases hnone
  · intro hfits
    rw [if_pos hfits]

theorem countRetryAfter_eq_none {events : List ℕ} {now window count : ℕ} (limit : ℕ)
    (hcount : (recent id now window events).length = count) :
    countRetryAfter events now window limit = none ↔ count + 1 ≤ limit := by
  unfold countRetryAfter
  simp only [hcount]
  constructor
  · intro hnone
    split at hnone
    · omega
    · cases hnone
  · intro hfits
    rw [if_pos]
    omega

theorem max?_reduceOption_eq_none {answers : List (Option ℕ)} :
    answers.reduceOption.max? = none ↔ ∀ answer ∈ answers, answer = none := by
  rw [List.max?_eq_none_iff, List.reduceOption]
  constructor
  · intro hnil answer hmem
    cases answer with
    | none => rfl
    | some seconds =>
        have hkept : seconds ∈ answers.filterMap id := List.mem_filterMap.mpr ⟨_, hmem, rfl⟩
        rw [hnil] at hkept
        cases hkept
  · intro hnone
    rw [List.filterMap_eq_nil_iff]
    exact hnone

/-! ## One call -/

section Check

variable {limits : EmailSendRateLimits} {now : ℕ} {state : EmailSendRateState} {log : List Send}

/-- The sums of the two source budgets are `u32` values. -/
structure EmailSendRateLimits.Bounded (limits : EmailSendRateLimits) (log : List Send)
    (attempt : SendAttempt) : Prop where
  window : windowTotal Send.windowCost attempt.now limits.sourceWindow
    (fromSource log attempt.source) < 2 ^ 32
  daily : windowTotal Send.dailyCost attempt.now limits.sourceDailyWindow
    (fromSource log attempt.source) < 2 ^ 32

/-- Or the budget is no limit, and the sums are not looked at. -/
structure EmailSendRateLimits.Counted (limits : EmailSendRateLimits) (log : List Send)
    (attempt : SendAttempt) : Prop where
  window : windowTotal Send.windowCost attempt.now limits.sourceWindow
    (fromSource log attempt.source) < 2 ^ 32 ∨ limits.sourceBudget.toNat = 2 ^ 32 - 1
  daily : windowTotal Send.dailyCost attempt.now limits.sourceDailyWindow
    (fromSource log attempt.source) < 2 ^ 32 ∨ limits.sourceDailyBudget.toNat = 2 ^ 32 - 1

theorem EmailSendRateLimits.Bounded.counted {attempt : SendAttempt}
    (hbounded : limits.Bounded log attempt) : limits.Counted log attempt :=
  ⟨.inl hbounded.window, .inl hbounded.daily⟩

/-- What the limiter permits: the two sums of a source saturate. -/
abbrev EmailSendRateLimits.PermitsSaturated (limits : EmailSendRateLimits) (log : List Send)
    (send : Send) : Prop :=
  min (windowTotal Send.windowCost send.sentAt limits.sourceWindow (fromSource log send.source) +
      send.windowCost) (2 ^ 32 - 1) ≤ limits.sourceBudget.toNat ∧
  min (windowTotal Send.dailyCost send.sentAt limits.sourceDailyWindow
      (fromSource log send.source) + send.dailyCost) (2 ^ 32 - 1) ≤
        limits.sourceDailyBudget.toNat ∧
  windowTotal (fun _ => 1) send.sentAt limits.recipientCooldown
      (toRecipient log send.recipient) + 1 ≤ 1 ∧
  windowTotal (fun _ => 1) send.sentAt limits.recipientHourWindow
      (toRecipient log send.recipient) + 1 ≤ limits.recipientHourLimit ∧
  windowTotal (fun _ => 1) send.sentAt limits.recipientDailyWindow
      (toRecipient log send.recipient) + 1 ≤ limits.recipientDailyLimit ∧
  windowTotal (fun _ => 1) send.sentAt limits.globalHourWindow log + 1 ≤ limits.globalHourLimit ∧
  windowTotal (fun _ => 1) send.sentAt limits.globalDailyWindow log + 1 ≤ limits.globalDailyLimit

/-- The log after a call as the limiter decides it. -/
def EmailSendRateLimits.loggedSaturated (limits : EmailSendRateLimits) (log : List Send)
    (attempt : SendAttempt) : List Send :=
  if limits.PermitsSaturated log (limits.charge log attempt) then
    log ++ [limits.charge log attempt]
  else log

theorem permitsSaturated_of_permits {send : Send} (hpermits : limits.Permits log send) :
    limits.PermitsSaturated log send := by
  obtain ⟨hsource, hdaily, hrest⟩ := hpermits
  exact ⟨(min_le_left _ _).trans hsource, (min_le_left _ _).trans hdaily, hrest⟩

theorem permitsSaturated_iff (hbudget : limits.sourceBudget < 4294967295)
    (hdaily : limits.sourceDailyBudget < 4294967295) {send : Send} :
    limits.PermitsSaturated log send ↔ limits.Permits log send := by
  have hmax : (4294967295 : UInt32).toNat = 2 ^ 32 - 1 := rfl
  rw [UInt32.lt_iff_toNat_lt, hmax] at hbudget hdaily
  constructor
  · intro hsaturated
    obtain ⟨hsource, hsourceDaily, hrest⟩ := hsaturated
    exact ⟨by omega, by omega, hrest⟩
  · exact permitsSaturated_of_permits

/-- All seven answers are `none` exactly if the send is permitted. -/
theorem Remembers.retryAfter_eq_none {sources : Buckets SourceSend} {recipients : Buckets ℕ}
    {global : List ℕ} {attempt : SendAttempt}
    (hremembers : Remembers limits attempt.now sources recipients global log)
    (hcounted : limits.Counted log attempt) :
    (∀ answer ∈ limits.retryAfter (sources.events attempt.source)
        (recipients.events attempt.recipient) global attempt.now
        (UInt32.ofNat (limits.charge log attempt).windowCost)
        (UInt32.ofNat (limits.charge log attempt).dailyCost), answer = none) ↔
      limits.PermitsSaturated log (limits.charge log attempt) := by
  have hretention : limits.recipientCooldown ≤ limits.recipientRetention ∧
      limits.recipientHourWindow ≤ limits.recipientRetention ∧
      limits.recipientDailyWindow ≤ limits.recipientRetention := by
    unfold EmailSendRateLimits.recipientRetention
    omega
  have hcheap : (limits.charge log attempt).windowCost ≤ 2 ∧
      (limits.charge log attempt).dailyCost ≤ 2 :=
    ⟨sendCost_le _ _ _ _ _, sendCost_le _ _ _ _ _⟩
  have hwindow := weightedRetryAfter_eq_none limits.sourceBudget SourceSend.windowCost
    Send.windowCost (fun _ => rfl) (hremembers.recent_sources attempt.source (le_max_left _ _))
    hcounted.window hcheap.1
  have hdaily := weightedRetryAfter_eq_none limits.sourceDailyBudget SourceSend.dailyCost
    Send.dailyCost (fun _ => rfl) (hremembers.recent_sources attempt.source (le_max_right _ _))
    hcounted.daily hcheap.2
  have hcooldown := countRetryAfter_eq_none 1
    (hremembers.length_recipients attempt.recipient hretention.1)
  have hhour := countRetryAfter_eq_none limits.recipientHourLimit
    (hremembers.length_recipients attempt.recipient hretention.2.1)
  have hday := countRetryAfter_eq_none limits.recipientDailyLimit
    (hremembers.length_recipients attempt.recipient hretention.2.2)
  have hglobalHour := countRetryAfter_eq_none limits.globalHourLimit
    (hremembers.length_global (le_max_left _ _))
  have hglobalDay := countRetryAfter_eq_none limits.globalDailyLimit
    (hremembers.length_global (le_max_right _ _))
  unfold EmailSendRateLimits.retryAfter EmailSendRateLimits.PermitsSaturated
  simp only [List.forall_mem_cons, List.not_mem_nil, false_implies, implies_true, and_true]
  rw [hwindow, hdaily, hcooldown, hhour, hday, hglobalHour, hglobalDay]
  rfl

/-- The limiter decides from its log and remembers the log it leads to. -/
theorem Remembers.checkAt {attempt : SendAttempt}
    (hremembers : Remembers limits attempt.now state.sources state.recipients state.global log)
    (hcounted : limits.Counted log attempt) :
    (limits.checkAt state attempt.source attempt.recipient attempt.now).2.isOk =
        decide (limits.PermitsSaturated log (limits.charge log attempt)) ∧
      Remembers limits attempt.now
        (limits.checkAt state attempt.source attempt.recipient attempt.now).1.sources
        (limits.checkAt state attempt.source attempt.recipient attempt.now).1.recipients
        (limits.checkAt state attempt.source attempt.recipient attempt.now).1.global
        (limits.loggedSaturated log attempt) := by
  have hswept := (hremembers.sweep attempt.source attempt.recipient).orDefault attempt.source
    attempt.recipient
  have hwindow := hswept.recipientCost_eq attempt.source attempt.recipient
    (le_max_left limits.sourceWindow limits.sourceDailyWindow)
  have hdaily := hswept.recipientCost_eq attempt.source attempt.recipient
    (le_max_right limits.sourceWindow limits.sourceDailyWindow)
  have hanswers := hswept.retryAfter_eq_none hcounted
  unfold EmailSendRateLimits.checkAt EmailSendRateLimits.loggedSaturated
  simp only [hwindow, hdaily]
  by_cases hpermits : limits.PermitsSaturated log (limits.charge log attempt)
  · have hnone := max?_reduceOption_eq_none.mpr (hanswers.mpr hpermits)
    simp only [EmailSendRateLimits.charge] at hnone
    simp only [hnone, if_pos hpermits]
    constructor
    · exact (decide_eq_true hpermits).symm
    · exact hswept.snoc (limits.charge log attempt) (Buckets.find?_orDefault _)
        (Buckets.find?_orDefault _)
  · have hsome : (limits.retryAfter _ _ _ _ _ _).reduceOption.max? ≠ none := fun hnone =>
      hpermits (hanswers.mp (max?_reduceOption_eq_none.mp hnone))
    simp only [EmailSendRateLimits.charge] at hsome
    obtain ⟨seconds, hseconds⟩ := Option.ne_none_iff_exists'.mp hsome
    simp only [hseconds, if_neg hpermits]
    constructor
    · exact (decide_eq_false hpermits).symm
    · exact hswept

end Check

/-! ## Every sequence of calls -/

/-- The accepted sends respect every budget in every window that ends with one
of them. -/
structure Budgeted (limits : EmailSendRateLimits) (log : List Send) : Prop where
  source : ∀ source, Metered Send.sentAt Send.windowCost limits.sourceWindow
    limits.sourceBudget.toNat (fromSource log source)
  sourceDaily : ∀ source, Metered Send.sentAt Send.dailyCost limits.sourceDailyWindow
    limits.sourceDailyBudget.toNat (fromSource log source)
  cooldown : ∀ recipient, Metered Send.sentAt (fun _ => 1) limits.recipientCooldown 1
    (toRecipient log recipient)
  recipientHour : ∀ recipient, Metered Send.sentAt (fun _ => 1) limits.recipientHourWindow
    limits.recipientHourLimit (toRecipient log recipient)
  recipientDaily : ∀ recipient, Metered Send.sentAt (fun _ => 1) limits.recipientDailyWindow
    limits.recipientDailyLimit (toRecipient log recipient)
  globalHour : Metered Send.sentAt (fun _ => 1) limits.globalHourWindow limits.globalHourLimit log
  globalDaily : Metered Send.sentAt (fun _ => 1) limits.globalDailyWindow limits.globalDailyLimit
    log

/-- In no half-open window does the accepted cost or count exceed its
budget. -/
structure WithinBudgets (limits : EmailSendRateLimits) (log : List Send) : Prop where
  source : ∀ source start,
    total Send.windowCost (between Send.sentAt start limits.sourceWindow (fromSource log source)) ≤
      limits.sourceBudget.toNat
  sourceDaily : ∀ source start,
    total Send.dailyCost
      (between Send.sentAt start limits.sourceDailyWindow (fromSource log source)) ≤
        limits.sourceDailyBudget.toNat
  cooldown : ∀ recipient start,
    (between Send.sentAt start limits.recipientCooldown (toRecipient log recipient)).length ≤ 1
  recipientHour : ∀ recipient start,
    (between Send.sentAt start limits.recipientHourWindow (toRecipient log recipient)).length ≤
      limits.recipientHourLimit
  recipientDaily : ∀ recipient start,
    (between Send.sentAt start limits.recipientDailyWindow (toRecipient log recipient)).length ≤
      limits.recipientDailyLimit
  globalHour : ∀ start,
    (between Send.sentAt start limits.globalHourWindow log).length ≤ limits.globalHourLimit
  globalDaily : ∀ start,
    (between Send.sentAt start limits.globalDailyWindow log).length ≤ limits.globalDailyLimit

section Runs

variable {limits : EmailSendRateLimits} {now : ℕ} {state : EmailSendRateState} {log : List Send}

theorem budgeted_nil : Budgeted limits [] := by
  constructor
  all_goals intros
  all_goals exact .nil

theorem Budgeted.snoc (hbudgeted : Budgeted limits log) {send : Send}
    (horder : ∀ old ∈ log, old.sentAt ≤ send.sentAt) (hpermits : limits.Permits log send) :
    Budgeted limits (log ++ [send]) := by
  obtain ⟨hsource, hdaily, hcooldown, hhour, hday, hglobalHour, hglobalDay⟩ := hpermits
  constructor
  · intro source
    apply (hbudgeted.source source).filter_snoc horder
    intro hsame
    rw [← of_decide_eq_true hsame]
    exact hsource
  · intro source
    apply (hbudgeted.sourceDaily source).filter_snoc horder
    intro hsame
    rw [← of_decide_eq_true hsame]
    exact hdaily
  · intro recipient
    apply (hbudgeted.cooldown recipient).filter_snoc horder
    intro hsame
    rw [← of_decide_eq_true hsame]
    exact hcooldown
  · intro recipient
    apply (hbudgeted.recipientHour recipient).filter_snoc horder
    intro hsame
    rw [← of_decide_eq_true hsame]
    exact hhour
  · intro recipient
    apply (hbudgeted.recipientDaily recipient).filter_snoc horder
    intro hsame
    rw [← of_decide_eq_true hsame]
    exact hday
  · exact .snoc log send hbudgeted.globalHour horder hglobalHour
  · exact .snoc log send hbudgeted.globalDaily horder hglobalDay

theorem length_le_of_metered {window budget : ℕ}
    (hmetered : Metered Send.sentAt (fun _ => 1) window budget log) (start : ℕ) :
    (between Send.sentAt start window log).length ≤ budget := by
  have hle := hmetered.total_between_le start
  have hlength : total (fun _ => 1) (between Send.sentAt start window log) =
      (between Send.sentAt start window log).length := by
    unfold total
    rw [List.map_const', List.sum_replicate, smul_eq_mul, mul_one]
  omega

theorem Budgeted.withinBudgets (hbudgeted : Budgeted limits log) : WithinBudgets limits log := by
  constructor
  · intro source start
    exact (hbudgeted.source source).total_between_le start
  · intro source start
    exact (hbudgeted.sourceDaily source).total_between_le start
  · intro recipient start
    exact length_le_of_metered (hbudgeted.cooldown recipient) start
  · intro recipient start
    exact length_le_of_metered (hbudgeted.recipientHour recipient) start
  · intro recipient start
    exact length_le_of_metered (hbudgeted.recipientDaily recipient) start
  · exact length_le_of_metered hbudgeted.globalHour
  · exact length_le_of_metered hbudgeted.globalDaily

theorem Budgeted.bounded (hbudgeted : Budgeted limits log) {attempt : SendAttempt}
    (hpast : ∀ send ∈ log, send.sentAt ≤ attempt.now) : limits.Bounded log attempt := by
  have hpastSource : ∀ send ∈ fromSource log attempt.source, send.sentAt ≤ attempt.now := by
    intro send hmem
    exact hpast send (List.mem_filter.mp hmem).1
  have hwindowTotal := (hbudgeted.source attempt.source).total_recent_le hpastSource
  have hdailyTotal := (hbudgeted.sourceDaily attempt.source).total_recent_le hpastSource
  have hbudget := limits.sourceBudget.toNat_lt
  have hdaily := limits.sourceDailyBudget.toNat_lt
  constructor
  · unfold windowTotal
    omega
  · unfold windowTotal
    omega

theorem loggedSaturated_eq (hbudget : limits.sourceBudget < 4294967295)
    (hdaily : limits.sourceDailyBudget < 4294967295) (attempt : SendAttempt) :
    limits.loggedSaturated log attempt = limits.logged log attempt := by
  unfold EmailSendRateLimits.loggedSaturated EmailSendRateLimits.logged
  simp only [permitsSaturated_iff hbudget hdaily]

theorem sentAt_le_of_logged {attempt : SendAttempt} (hpast : ∀ send ∈ log, send.sentAt ≤ attempt.now)
    {send : Send} (hmem : send ∈ limits.logged log attempt) : send.sentAt ≤ attempt.now := by
  unfold EmailSendRateLimits.logged at hmem
  split_ifs at hmem
  · rw [List.mem_append, List.mem_singleton] at hmem
    cases hmem with
    | inl hold => exact hpast send hold
    | inr hlast =>
        rw [hlast]
        exact le_refl _
  · exact hpast send hmem

theorem Budgeted.logged (hbudgeted : Budgeted limits log) {attempt : SendAttempt}
    (hpast : ∀ send ∈ log, send.sentAt ≤ attempt.now) :
    Budgeted limits (limits.logged log attempt) := by
  unfold EmailSendRateLimits.logged
  split_ifs with hpermits
  · exact hbudgeted.snoc hpast hpermits
  · exact hbudgeted

/-- The calls come in the order of time, none of them before this instant. -/
def Ordered (now : ℕ) (attempts : List SendAttempt) : Prop :=
  (∀ attempt ∈ attempts, now ≤ attempt.now) ∧
    attempts.Pairwise fun first second => first.now ≤ second.now

theorem Ordered.tail {attempt : SendAttempt} {rest : List SendAttempt}
    (hordered : Ordered now (attempt :: rest)) : Ordered attempt.now rest := by
  have hpairwise := List.pairwise_cons.mp hordered.2
  exact ⟨hpairwise.1, hpairwise.2⟩

/-- From a state that remembers its log the limiter decides as the
specification does. -/
theorem decisions_eq (hbudget : limits.sourceBudget < 4294967295)
    (hdaily : limits.sourceDailyBudget < 4294967295)
    (hremembers : Remembers limits now state.sources state.recipients state.global log)
    (hbudgeted : Budgeted limits log) (hpast : ∀ send ∈ log, send.sentAt ≤ now)
    {attempts : List SendAttempt} (hordered : Ordered now attempts) :
    limits.decisions state attempts = limits.specification log attempts := by
  induction attempts generalizing state log now with
  | nil => rfl
  | cons attempt rest ih =>
      have hnow := hordered.1 attempt List.mem_cons_self
      have hpastAttempt : ∀ send ∈ log, send.sentAt ≤ attempt.now := by
        intro send hmem
        have hle := hpast send hmem
        omega
      have hbounded := hbudgeted.bounded hpastAttempt
      obtain ⟨hdecision, hnext⟩ := (hremembers.later hnow).checkAt hbounded.counted
      rw [loggedSaturated_eq hbudget hdaily] at hnext
      simp only [permitsSaturated_iff hbudget hdaily] at hdecision
      unfold EmailSendRateLimits.decisions EmailSendRateLimits.specification
      simp only
      rw [hdecision, ih hnext (hbudgeted.logged hpastAttempt)
        (fun send hmem => sentAt_le_of_logged hpastAttempt hmem) hordered.tail]

/-- The state after these calls. -/
def EmailSendRateLimits.after (limits : EmailSendRateLimits) (attempts : List SendAttempt) :
    EmailSendRateState :=
  attempts.foldl
    (fun state attempt => (limits.checkAt state attempt.source attempt.recipient attempt.now).1)
    .empty

/-- What holds of the state and the log after every sequence of calls. -/
theorem remembers_after (hbudget : limits.sourceBudget < 4294967295)
    (hdaily : limits.sourceDailyBudget < 4294967295) {attempts : List SendAttempt}
    (hordered : attempts.Pairwise fun first second => first.now ≤ second.now)
    (hlast : ∀ attempt ∈ attempts, attempt.now ≤ now) :
    Remembers limits now (limits.after attempts).sources (limits.after attempts).recipients
        (limits.after attempts).global (limits.accepted attempts) ∧
      Budgeted limits (limits.accepted attempts) ∧
      ∀ send ∈ limits.accepted attempts, send.sentAt ≤ now := by
  induction attempts using List.reverseRecOn generalizing now with
  | nil => exact ⟨remembers_empty, budgeted_nil, by intro send hmem; cases hmem⟩
  | append_singleton rest attempt ih =>
      rw [List.pairwise_append] at hordered
      have hbefore : ∀ old ∈ rest, old.now ≤ attempt.now := fun old hmem =>
        hordered.2.2 old hmem attempt List.mem_cons_self
      have hnow := hlast attempt (by simp)
      obtain ⟨hremembers, hbudgeted, hpast⟩ := ih hordered.1 hbefore
      have hnext := (hremembers.checkAt (hbudgeted.bounded hpast).counted).2
      rw [loggedSaturated_eq hbudget hdaily] at hnext
      have hstate : limits.after (rest ++ [attempt]) =
          (limits.checkAt (limits.after rest) attempt.source attempt.recipient attempt.now).1 := by
        unfold EmailSendRateLimits.after
        rw [List.foldl_append]
        rfl
      have hlog : limits.accepted (rest ++ [attempt]) =
          limits.logged (limits.accepted rest) attempt := by
        unfold EmailSendRateLimits.accepted
        rw [List.foldl_append]
        rfl
      rw [hstate, hlog]
      refine ⟨hnext.later hnow, hbudgeted.logged hpast, ?_⟩
      intro send hmem
      have hle := sentAt_le_of_logged hpast hmem
      omega

theorem specification_append (log : List Send) (first rest : List SendAttempt) :
    limits.specification log (first ++ rest) =
      limits.specification log first ++
        limits.specification (first.foldl limits.logged log) rest := by
  induction first generalizing log with
  | nil => rfl
  | cons attempt first ih =>
      rw [List.cons_append, EmailSendRateLimits.specification, EmailSendRateLimits.specification,
        ih, List.cons_append]
      rfl

/-- The limiter decides every sequence of calls as the log of all accepted
sends does; a rejected call and a sweep change no later decision; and the
accepted sends stay within every budget. -/
theorem email_send_limiter (limits : EmailSendRateLimits)
    (hbudget : limits.sourceBudget < 4294967295) (hdaily : limits.sourceDailyBudget < 4294967295)
    {attempts : List SendAttempt}
    (hordered : attempts.Pairwise fun first second => first.now ≤ second.now) :
    limits.decisions .empty attempts = limits.specification [] attempts ∧
      (∀ first attempt rest, attempts = first ++ attempt :: rest →
        limits.decisions .empty (first ++ [attempt]) =
          limits.decisions .empty first ++ [false] →
        ∃ later, limits.decisions .empty attempts =
            limits.decisions .empty first ++ false :: later ∧
          limits.decisions .empty (first ++ rest) = limits.decisions .empty first ++ later) ∧
      (∀ first rest source recipient now, attempts = first ++ rest →
        (∀ attempt ∈ first, attempt.now ≤ now) → (∀ attempt ∈ rest, now ≤ attempt.now) →
        limits.decisions (limits.sweep (limits.after first) source recipient now) rest =
          limits.decisions (limits.after first) rest) ∧
      WithinBudgets limits (limits.accepted attempts) := by
  have hall : ∀ attempts : List SendAttempt,
      (attempts.Pairwise fun first second => first.now ≤ second.now) →
        limits.decisions .empty attempts = limits.specification [] attempts := by
    intro attempts hordered
    have hinitial : Remembers limits 0 .empty .empty [] [] := remembers_empty
    apply decisions_eq hbudget hdaily hinitial budgeted_nil
    · intro send hmem
      cases hmem
    · exact ⟨fun _ _ => Nat.zero_le _, hordered⟩
  refine ⟨hall attempts hordered, ?_, ?_, ?_⟩
  · intro first attempt rest hattempts hrejected
    subst hattempts
    have hfirst : first.Pairwise fun first second => first.now ≤ second.now :=
      hordered.sublist (List.sublist_append_left first _)
    have hshort : (first ++ [attempt]).Pairwise fun first second => first.now ≤ second.now :=
      hordered.sublist (by simp)
    have hwithout : (first ++ rest).Pairwise fun first second => first.now ≤ second.now :=
      hordered.sublist (by simp)
    rw [hall _ hshort, hall _ hfirst, specification_append, List.append_cancel_left_eq] at hrejected
    have hdenied : decide (limits.Permits (limits.accepted first)
        (limits.charge (limits.accepted first) attempt)) = false :=
      (List.cons.inj hrejected).1
    have hlogged : limits.logged (limits.accepted first) attempt = limits.accepted first := by
      unfold EmailSendRateLimits.logged
      rw [if_neg (of_decide_eq_false hdenied)]
    refine ⟨limits.specification (limits.accepted first) rest, ?_, ?_⟩
    · rw [hall _ hordered, hall _ hfirst, specification_append,
        EmailSendRateLimits.specification]
      change _ ++ decide (limits.Permits (limits.accepted first)
          (limits.charge (limits.accepted first) attempt)) ::
        limits.specification (limits.logged (limits.accepted first) attempt) rest = _
      rw [hlogged, hdenied]
    · rw [hall _ hwithout, hall _ hfirst, specification_append]
      rfl
  · intro first rest source recipient now hattempts hbefore hafter
    subst hattempts
    rw [List.pairwise_append] at hordered
    obtain ⟨hremembers, hbudgeted, hpast⟩ := remembers_after hbudget hdaily hordered.1 hbefore
    have hrest : Ordered now rest := ⟨hafter, hordered.2.1⟩
    rw [decisions_eq hbudget hdaily (hremembers.sweep source recipient) hbudgeted hpast hrest,
      decisions_eq hbudget hdaily hremembers hbudgeted hpast hrest]
  · have hlast : ∀ attempt ∈ attempts, attempt.now ≤ (attempts.map SendAttempt.now).sum := by
      intro attempt hmem
      exact List.le_sum_of_mem (List.mem_map_of_mem hmem)
    exact (remembers_after hbudget hdaily hordered hlast).2.1.withinBudgets

/-- Two messages to one recipient and one to another, within two minutes. -/
theorem email_send_limiter_default :
    let attempts : List SendAttempt :=
      [⟨"192.0.2.1", "ada", 0⟩, ⟨"192.0.2.1", "ada", seconds 30⟩, ⟨"192.0.2.1", "bob", seconds 90⟩]
    EmailSendRateLimits.default.decisions .empty attempts =
        EmailSendRateLimits.default.specification [] attempts ∧
      WithinBudgets .default (EmailSendRateLimits.default.accepted attempts) := by
  intro attempts
  have hordered : attempts.Pairwise fun first second => first.now ≤ second.now := by decide
  have hdecided := email_send_limiter .default (by decide) (by decide) hordered
  exact ⟨hdecided.1, hdecided.2.2.2⟩

end Runs

/-! ### Sums that saturate -/

/-- Both budgets of a source are `u32::MAX`. -/
def saturatingLimits : EmailSendRateLimits where
  sourceWindow := 10
  sourceBudget := 4294967295
  sourceDailyWindow := 10
  sourceDailyBudget := 4294967295
  recipientCooldown := 1
  recipientHourWindow := 1
  recipientHourLimit := 1
  recipientDailyWindow := 1
  recipientDailyLimit := 1
  globalHourWindow := 1
  globalHourLimit := ⟨4294967296, Nat.succ_pos _⟩
  globalDailyWindow := 1
  globalDailyLimit := ⟨4294967296, Nat.succ_pos _⟩

def recipientName (index : ℕ) : String := index.repr ++ "@example.com"

/-- The displayed number of sends from one source, all to different
recipients. -/
def crowd (size : ℕ) : List SendAttempt :=
  (List.range size).map fun index => ⟨"source", recipientName index, 0⟩

/-- The log of these sends. -/
def crowdLog (size : ℕ) : List Send :=
  (List.range size).map fun index =>
    ⟨0, "source", recipientName index, if index = 0 then 1 else 2, if index = 0 then 1 else 2⟩

theorem recipientName_injective : Function.Injective recipientName := by
  intro first second hsame
  apply Nat.repr_injective
  simpa [recipientName] using hsame

theorem recent_crowdLog {now window : ℕ} (hwindow : now < window) (size : ℕ) :
    recent Send.sentAt now window (crowdLog size) = crowdLog size := by
  unfold recent
  rw [List.filter_eq_self]
  intro send hmem
  obtain ⟨index, _, heq⟩ := List.mem_map.mp hmem
  rw [← heq]
  simpa using hwindow

theorem fromSource_crowdLog (size : ℕ) : fromSource (crowdLog size) "source" = crowdLog size := by
  unfold fromSource
  rw [List.filter_eq_self]
  intro send hmem
  obtain ⟨index, _, heq⟩ := List.mem_map.mp hmem
  rw [← heq]
  rfl

theorem toRecipient_crowdLog (size : ℕ) : toRecipient (crowdLog size) (recipientName size) = [] := by
  unfold toRecipient
  rw [List.filter_eq_nil_iff]
  intro send hmem hsame
  obtain ⟨index, hindex, heq⟩ := List.mem_map.mp hmem
  rw [← heq, decide_eq_true_eq] at hsame
  have hname := recipientName_injective hsame
  rw [List.mem_range] at hindex
  omega

theorem total_crowdLog (size : ℕ) :
    total Send.windowCost (crowdLog (size + 1)) = 2 * size + 1 ∧
      total Send.dailyCost (crowdLog (size + 1)) = 2 * size + 1 := by
  induction size with
  | zero => exact ⟨rfl, rfl⟩
  | succ size ih =>
      have hsplit : crowdLog (size + 1 + 1) = crowdLog (size + 1) ++
          [⟨0, "source", recipientName (size + 1), 2, 2⟩] := by
        unfold crowdLog
        rw [List.range_succ (n := size + 1), List.map_append]
        rfl
      rw [hsplit, total_append, total_append, ih.1, ih.2]
      constructor <;> rfl

theorem length_recent_crowdLog (size : ℕ) :
    windowTotal (fun _ => 1) 0 1 (crowdLog size) = size := by
  unfold windowTotal total
  rw [recent_crowdLog Nat.zero_lt_one, List.map_const', List.sum_replicate, smul_eq_mul, mul_one]
  unfold crowdLog
  rw [List.length_map, List.length_range]

theorem sendCost_crowdLog {now : ℕ} (hnow : now < 10) (size : ℕ) :
    sendCost (crowdLog size) "source" (recipientName size) now 10 = if size = 0 then 1 else 2 := by
  have hnew : ¬ ∃ send ∈ crowdLog size,
      send.source = "source" ∧ send.recipient = recipientName size := by
    intro hcontra
    obtain ⟨send, hmem, _, hsame⟩ := hcontra
    have hnone := toRecipient_crowdLog size
    unfold toRecipient at hnone
    rw [List.filter_eq_nil_iff] at hnone
    exact hnone send hmem (decide_eq_true hsame)
  unfold sendCost
  simp only [recent_crowdLog hnow, hnew, false_or]
  cases size with
  | zero => simp [crowdLog]
  | succ size =>
      have hfirst : ∃ send ∈ crowdLog (size + 1), send.source = "source" :=
        ⟨_, List.mem_map_of_mem (List.mem_range.mpr (Nat.succ_pos size)), rfl⟩
      rw [if_neg (fun hnone => hnone hfirst), if_neg (Nat.succ_ne_zero size)]

/-- The sums of the two source budgets for a crowd. -/
theorem windowTotal_crowdLog_le {now : ℕ} (hnow : now < 10) (size : ℕ) :
    windowTotal Send.windowCost now 10 (crowdLog size) ≤ 2 * size - 1 ∧
      windowTotal Send.dailyCost now 10 (crowdLog size) ≤ 2 * size - 1 := by
  unfold windowTotal
  rw [recent_crowdLog hnow]
  cases size with
  | zero => exact ⟨le_refl 0, le_refl 0⟩
  | succ size =>
      have htotal := total_crowdLog size
      omega

theorem toNat_sourceBudget_saturatingLimits :
    saturatingLimits.sourceBudget.toNat = 2 ^ 32 - 1 ∧
      saturatingLimits.sourceDailyBudget.toNat = 2 ^ 32 - 1 := by
  constructor <;> rfl

theorem globalLimit_saturatingLimits :
    (saturatingLimits.globalHourLimit : ℕ) = 2 ^ 32 ∧
      (saturatingLimits.globalDailyLimit : ℕ) = 2 ^ 32 := by
  constructor <;> rfl

/-- A send is allowed whose recipient got none and which the two source budgets
and the global ones have room for. -/
theorem permits_saturatingLimits {log : List Send} {send : Send}
    (hwindow : windowTotal Send.windowCost send.sentAt 10 (fromSource log send.source) +
      send.windowCost ≤ 2 ^ 32 - 1)
    (hdaily : windowTotal Send.dailyCost send.sentAt 10 (fromSource log send.source) +
      send.dailyCost ≤ 2 ^ 32 - 1)
    (hrecipient : windowTotal (fun _ => 1) send.sentAt 1 (toRecipient log send.recipient) = 0)
    (hglobal : windowTotal (fun _ => 1) send.sentAt 1 log + 1 ≤ 2 ^ 32) :
    saturatingLimits.Permits log send := by
  have hone : windowTotal (fun _ => 1) send.sentAt 1 (toRecipient log send.recipient) + 1 ≤ 1 := by
    rw [hrecipient]
  obtain ⟨hbudget, hdailyBudget⟩ := toNat_sourceBudget_saturatingLimits
  obtain ⟨hhour, hday⟩ := globalLimit_saturatingLimits
  unfold EmailSendRateLimits.Permits
  rw [hbudget, hdailyBudget, hhour, hday]
  exact ⟨hwindow, hdaily, hone, hone, hone, hglobal, hglobal⟩

theorem after_append (limits : EmailSendRateLimits) (first : List SendAttempt)
    (attempt : SendAttempt) : limits.after (first ++ [attempt]) =
      (limits.checkAt (limits.after first) attempt.source attempt.recipient attempt.now).1 := by
  unfold EmailSendRateLimits.after
  rw [List.foldl_append]
  rfl

theorem accepted_append (limits : EmailSendRateLimits) (first : List SendAttempt)
    (attempt : SendAttempt) : limits.accepted (first ++ [attempt]) =
      limits.logged (limits.accepted first) attempt := by
  unfold EmailSendRateLimits.accepted
  rw [List.foldl_append]
  rfl

/-- Every send of a crowd is accepted, and its log is as displayed. -/
theorem crowd_accepted {size : ℕ} (hsize : 2 * size + 2 ≤ 2 ^ 32) :
    Remembers saturatingLimits 0 (saturatingLimits.after (crowd size)).sources
        (saturatingLimits.after (crowd size)).recipients (saturatingLimits.after (crowd size)).global
        (crowdLog size) ∧
      saturatingLimits.accepted (crowd size) = crowdLog size := by
  induction size with
  | zero => exact ⟨remembers_empty, rfl⟩
  | succ size ih =>
      obtain ⟨hremembers, haccepted⟩ := ih (by omega)
      have hlast : crowd (size + 1) = crowd size ++ [⟨"source", recipientName size, 0⟩] := by
        unfold crowd
        rw [List.range_succ, List.map_append]
        rfl
      have hcharge : saturatingLimits.charge (crowdLog size) ⟨"source", recipientName size, 0⟩ =
          ⟨0, "source", recipientName size, if size = 0 then 1 else 2,
            if size = 0 then 1 else 2⟩ := by
        have hcost := sendCost_crowdLog (Nat.zero_lt_succ 9) size
        unfold EmailSendRateLimits.charge
        simp only [saturatingLimits, hcost]
      have hlog : crowdLog (size + 1) = crowdLog size ++
          [saturatingLimits.charge (crowdLog size) ⟨"source", recipientName size, 0⟩] := by
        rw [hcharge]
        unfold crowdLog
        rw [List.range_succ, List.map_append]
        rfl
      obtain ⟨hwindow, hdaily⟩ := windowTotal_crowdLog_le (Nat.zero_lt_succ 9) size
      have hcheap : (if size = 0 then 1 else 2) + (2 * size - 1) ≤ 2 ^ 32 - 1 := by
        split_ifs <;> omega
      have hpermits : saturatingLimits.Permits (crowdLog size)
          (saturatingLimits.charge (crowdLog size) ⟨"source", recipientName size, 0⟩) := by
        rw [hcharge]
        apply permits_saturatingLimits
        · rw [fromSource_crowdLog]
          change windowTotal Send.windowCost 0 10 (crowdLog size) +
            (if size = 0 then 1 else 2) ≤ _
          omega
        · rw [fromSource_crowdLog]
          change windowTotal Send.dailyCost 0 10 (crowdLog size) +
            (if size = 0 then 1 else 2) ≤ _
          omega
        · rw [toRecipient_crowdLog]
          rfl
        · rw [length_recent_crowdLog]
          omega
      have hbounded : saturatingLimits.Bounded (crowdLog size)
          ⟨"source", recipientName size, 0⟩ := by
        constructor
        all_goals
          simp only [saturatingLimits, fromSource_crowdLog]
          omega
      have hnext := (hremembers.checkAt hbounded.counted).2
      unfold EmailSendRateLimits.loggedSaturated at hnext
      rw [if_pos (permitsSaturated_of_permits hpermits), ← hlog] at hnext
      rw [hlast, after_append, accepted_append, haccepted, EmailSendRateLimits.logged,
        if_pos hpermits, ← hlog]
      exact ⟨hnext, rfl⟩

/-- A second send to the first recipient, one nanosecond later. -/
def repeatedSend : SendAttempt := ⟨"source", recipientName 0, 1⟩

theorem decisions_append (limits : EmailSendRateLimits) (first rest : List SendAttempt) :
    limits.decisions .empty (first ++ rest) =
      limits.decisions .empty first ++ limits.decisions (limits.after first) rest := by
  have hfrom : ∀ state : EmailSendRateState,
      limits.decisions state (first ++ rest) = limits.decisions state first ++
        limits.decisions (first.foldl (fun state attempt =>
          (limits.checkAt state attempt.source attempt.recipient attempt.now).1) state) rest := by
    induction first with
    | nil => exact fun _ => rfl
    | cons attempt first ih =>
        intro state
        rw [List.cons_append, EmailSendRateLimits.decisions, EmailSendRateLimits.decisions]
        simp only [ih, List.cons_append, List.foldl_cons]
  exact hfrom .empty

theorem length_decisions (limits : EmailSendRateLimits) (state : EmailSendRateState)
    (attempts : List SendAttempt) : (limits.decisions state attempts).length = attempts.length := by
  induction attempts generalizing state with
  | nil => rfl
  | cons attempt rest ih => exact congrArg Nat.succ (ih _)

theorem length_specification (limits : EmailSendRateLimits) (log : List Send)
    (attempts : List SendAttempt) :
    (limits.specification log attempts).length = attempts.length := by
  induction attempts generalizing log with
  | nil => rfl
  | cons attempt rest ih => exact congrArg Nat.succ (ih _)

/-- The log of a crowd and the repeated send. -/
def repeatedLog (size : ℕ) : List Send :=
  crowdLog size ++ [⟨1, "source", recipientName 0, 1, 1⟩]

theorem recent_crowdLog_nil (size : ℕ) : recent Send.sentAt 1 1 (crowdLog size) = [] := by
  unfold recent
  rw [List.filter_eq_nil_iff]
  intro send hmem
  obtain ⟨index, _, heq⟩ := List.mem_map.mp hmem
  rw [← heq]
  simp

theorem charge_repeatedSend (size : ℕ) :
    saturatingLimits.charge (crowdLog (size + 1)) repeatedSend =
      ⟨1, "source", recipientName 0, 1, 1⟩ := by
  have hfirst : ∃ send ∈ crowdLog (size + 1),
      send.source = "source" ∧ send.recipient = recipientName 0 :=
    ⟨_, List.mem_map_of_mem (List.mem_range.mpr (Nat.succ_pos size)), rfl, rfl⟩
  have hcost : sendCost (crowdLog (size + 1)) "source" (recipientName 0) 1 10 = 1 := by
    unfold sendCost
    rw [recent_crowdLog (by omega), if_pos (Or.inl hfirst)]
  unfold EmailSendRateLimits.charge
  simp only [saturatingLimits, repeatedSend, hcost]

/-- The log of a crowd and the repeated send costs two less than `2 ^ 32`. -/
theorem windowTotal_repeatedLog {size : ℕ} (hsize : 2 * size + 4 = 2 ^ 32) :
    windowTotal Send.windowCost 1 10 (repeatedLog (size + 1)) = 2 ^ 32 - 2 ∧
      windowTotal Send.dailyCost 1 10 (repeatedLog (size + 1)) = 2 ^ 32 - 2 := by
  have hlast : recent Send.sentAt 1 10 [⟨1, "source", recipientName 0, 1, 1⟩] =
      [⟨1, "source", recipientName 0, 1, 1⟩] := rfl
  obtain ⟨hwindow, hdaily⟩ := total_crowdLog size
  unfold windowTotal repeatedLog
  rw [recent_append, recent_crowdLog (by omega), hlast, total_append, total_append, hwindow, hdaily]
  constructor
  · change 2 * size + 1 + 1 = _
    omega
  · change 2 * size + 1 + 1 = _
    omega

theorem fromSource_repeatedLog (size : ℕ) :
    fromSource (repeatedLog size) "source" = repeatedLog size := by
  have hcrowd := fromSource_crowdLog size
  unfold fromSource at hcrowd
  unfold fromSource repeatedLog
  rw [List.filter_append, hcrowd]
  rfl

theorem toRecipient_repeatedLog (size : ℕ) :
    toRecipient (repeatedLog (size + 1)) (recipientName (size + 1)) = [] := by
  have hcrowd := toRecipient_crowdLog (size + 1)
  have hother : recipientName 0 ≠ recipientName (size + 1) := by
    intro hsame
    have hname := recipientName_injective hsame
    omega
  unfold toRecipient at hcrowd
  unfold toRecipient repeatedLog
  rw [List.filter_append, hcrowd, List.nil_append]
  simp [hother]

theorem sendCost_repeatedLog (size : ℕ) :
    sendCost (repeatedLog (size + 1)) "source" (recipientName (size + 1)) 1 10 = 2 := by
  have hrecent : recent Send.sentAt 1 10 (repeatedLog (size + 1)) = repeatedLog (size + 1) := by
    unfold repeatedLog
    rw [recent_append, recent_crowdLog (by omega)]
    rfl
  have hnew : ¬ ∃ send ∈ repeatedLog (size + 1),
      send.source = "source" ∧ send.recipient = recipientName (size + 1) := by
    intro hcontra
    obtain ⟨send, hmem, _, hsame⟩ := hcontra
    have hnone := toRecipient_repeatedLog size
    unfold toRecipient at hnone
    rw [List.filter_eq_nil_iff] at hnone
    exact hnone send hmem (decide_eq_true hsame)
  have hsome : ∃ send ∈ repeatedLog (size + 1), send.source = "source" :=
    ⟨_, List.mem_append_right _ List.mem_cons_self, rfl⟩
  unfold sendCost
  simp only [hrecent]
  rw [if_neg]
  intro hcheap
  cases hcheap with
  | inl hknown => exact hnew hknown
  | inr hnone => exact hnone hsome

/-- The repeated send is accepted. -/
theorem repeated_accepted {size : ℕ} (hsize : 2 * size + 4 = 2 ^ 32) :
    Remembers saturatingLimits 1
        (saturatingLimits.after (crowd (size + 1) ++ [repeatedSend])).sources
        (saturatingLimits.after (crowd (size + 1) ++ [repeatedSend])).recipients
        (saturatingLimits.after (crowd (size + 1) ++ [repeatedSend])).global
        (repeatedLog (size + 1)) ∧
      saturatingLimits.accepted (crowd (size + 1) ++ [repeatedSend]) = repeatedLog (size + 1) := by
  obtain ⟨hremembers, haccepted⟩ := crowd_accepted (show 2 * (size + 1) + 2 ≤ 2 ^ 32 by omega)
  obtain ⟨hwindow, hdaily⟩ := windowTotal_crowdLog_le (show 1 < 10 by omega) (size + 1)
  have hpermits : saturatingLimits.Permits (crowdLog (size + 1))
      (saturatingLimits.charge (crowdLog (size + 1)) repeatedSend) := by
    rw [charge_repeatedSend]
    apply permits_saturatingLimits
    · rw [fromSource_crowdLog]
      change windowTotal Send.windowCost 1 10 (crowdLog (size + 1)) + 1 ≤ _
      omega
    · rw [fromSource_crowdLog]
      change windowTotal Send.dailyCost 1 10 (crowdLog (size + 1)) + 1 ≤ _
      omega
    · have hnone := recent_crowdLog_nil (size + 1)
      unfold recent at hnone
      rw [List.filter_eq_nil_iff] at hnone
      have hempty : recent Send.sentAt 1 1
          (toRecipient (crowdLog (size + 1)) (recipientName 0)) = [] := by
        unfold recent
        rw [List.filter_eq_nil_iff]
        intro send hmem
        exact hnone send (List.mem_filter.mp hmem).1
      unfold windowTotal
      rw [hempty]
      rfl
    · unfold windowTotal
      rw [recent_crowdLog_nil]
      change 0 + 1 ≤ _
      omega
  have hbounded : saturatingLimits.Bounded (crowdLog (size + 1)) repeatedSend := by
    constructor
    · change windowTotal Send.windowCost 1 10 (fromSource (crowdLog (size + 1)) "source") < _
      rw [fromSource_crowdLog]
      omega
    · change windowTotal Send.dailyCost 1 10 (fromSource (crowdLog (size + 1)) "source") < _
      rw [fromSource_crowdLog]
      omega
  have hnext := ((hremembers.later (Nat.zero_le repeatedSend.now)).checkAt hbounded.counted).2
  unfold EmailSendRateLimits.loggedSaturated at hnext
  rw [if_pos (permitsSaturated_of_permits hpermits), charge_repeatedSend] at hnext
  rw [after_append, accepted_append, haccepted, EmailSendRateLimits.logged, if_pos hpermits,
    charge_repeatedSend]
  exact ⟨hnext, rfl⟩

/-- The send after that is accepted too, though not permitted. -/
theorem saturated_accepted {size : ℕ} (hsize : 2 * size + 4 = 2 ^ 32) :
    (saturatingLimits.checkAt (saturatingLimits.after (crowd (size + 1) ++ [repeatedSend]))
        "source" (recipientName (size + 1)) 1).2.isOk = true ∧
      ¬ saturatingLimits.Permits (saturatingLimits.accepted (crowd (size + 1) ++ [repeatedSend]))
        (saturatingLimits.charge (saturatingLimits.accepted (crowd (size + 1) ++ [repeatedSend]))
          ⟨"source", recipientName (size + 1), 1⟩) := by
  obtain ⟨hremembers, haccepted⟩ := repeated_accepted hsize
  obtain ⟨hwindow, hdaily⟩ := windowTotal_repeatedLog hsize
  obtain ⟨hbudget, hdailyBudget⟩ := toNat_sourceBudget_saturatingLimits
  obtain ⟨hhour, hday⟩ := globalLimit_saturatingLimits
  have hcharge : saturatingLimits.charge (repeatedLog (size + 1))
      ⟨"source", recipientName (size + 1), 1⟩ =
        ⟨1, "source", recipientName (size + 1), 2, 2⟩ := by
    have hcost := sendCost_repeatedLog size
    unfold EmailSendRateLimits.charge
    simp only [saturatingLimits, hcost]
  have hbounded : saturatingLimits.Bounded (repeatedLog (size + 1))
      ⟨"source", recipientName (size + 1), 1⟩ := by
    constructor
    · change windowTotal Send.windowCost 1 10 (fromSource (repeatedLog (size + 1)) "source") < _
      rw [fromSource_repeatedLog]
      omega
    · change windowTotal Send.dailyCost 1 10 (fromSource (repeatedLog (size + 1)) "source") < _
      rw [fromSource_repeatedLog]
      omega
  have hrecipient : windowTotal (fun _ => 1) 1 1
      (toRecipient (repeatedLog (size + 1)) (recipientName (size + 1))) + 1 ≤ 1 := by
    rw [toRecipient_repeatedLog]
    exact le_refl 1
  have hglobal : windowTotal (fun _ => 1) 1 1 (repeatedLog (size + 1)) + 1 ≤ 2 ^ 32 := by
    unfold windowTotal repeatedLog
    rw [recent_append, recent_crowdLog_nil]
    change 1 + 1 ≤ _
    omega
  have hsaturated : saturatingLimits.PermitsSaturated (repeatedLog (size + 1))
      ⟨1, "source", recipientName (size + 1), 2, 2⟩ := by
    unfold EmailSendRateLimits.PermitsSaturated
    rw [hbudget, hdailyBudget, hhour, hday]
    exact ⟨min_le_right _ _, min_le_right _ _, hrecipient, hrecipient, hrecipient, hglobal, hglobal⟩
  have hdecision := (hremembers.checkAt hbounded.counted).1
  rw [hcharge, decide_eq_true hsaturated] at hdecision
  rw [haccepted, hcharge]
  constructor
  · exact hdecision
  · intro hpermits
    have hsource := hpermits.1
    rw [fromSource_repeatedLog, hbudget] at hsource
    change windowTotal Send.windowCost 1 10 (repeatedLog (size + 1)) + 2 ≤ _ at hsource
    omega

/-- With a budget of `u32::MAX` the limiter accepts a send which the log of all
accepted sends does not allow. -/
theorem email_send_limiter_counterexample :
    ∃ attempts : List SendAttempt,
      (attempts.Pairwise fun first second => first.now ≤ second.now) ∧
        saturatingLimits.decisions .empty attempts ≠
          saturatingLimits.specification [] attempts := by
  obtain ⟨size, hsize⟩ : ∃ size, 2 * size + 4 = 2 ^ 32 := ⟨2 ^ 31 - 2, by norm_num⟩
  obtain ⟨haccepted, hdenied⟩ := saturated_accepted hsize
  refine ⟨(crowd (size + 1) ++ [repeatedSend]) ++ [⟨"source", recipientName (size + 1), 1⟩], ?_, ?_⟩
  · rw [List.pairwise_append, List.pairwise_append]
    refine ⟨⟨?_, List.pairwise_singleton _ _, ?_⟩, List.pairwise_singleton _ _, ?_⟩
    · unfold crowd
      rw [List.pairwise_map]
      exact List.pairwise_of_forall fun _ _ => le_refl 0
    · intro old hold last hlast
      obtain ⟨index, _, heq⟩ := List.mem_map.mp hold
      rw [← heq]
      exact Nat.zero_le _
    · intro old hold last hlast
      rw [List.mem_singleton] at hlast
      rw [hlast]
      rw [List.mem_append, List.mem_singleton] at hold
      cases hold with
      | inl hcrowd =>
          obtain ⟨index, _, heq⟩ := List.mem_map.mp hcrowd
          rw [← heq]
          exact Nat.zero_le _
      | inr hrepeated =>
          rw [hrepeated]
          exact le_refl 1
  · rw [decisions_append, specification_append]
    intro hsame
    have hlast := (List.append_inj hsame (by rw [length_decisions, length_specification])).2
    have hboth := (List.cons.inj hlast).1
    rw [haccepted] at hboth
    exact hdenied (of_decide_eq_true hboth.symm)

end SeizaServer
