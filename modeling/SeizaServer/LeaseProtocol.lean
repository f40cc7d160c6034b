import SeizaServer.LabelledRun

/-!
# The exclusive lease protocol

An abstract register that is leased to one holder at a time.  A grant hands
out a token together with an expiry; the holder may renew the expiry, use the
lease, or finish it with an outcome; a lapse takes the lease back once some
clock has reached the expiry.  Tokens, times and outcomes are arbitrary types,
when a clock has reached an expiry is a parameter, and every party may read its
own clock: nothing here compares two clocks.
-/

namespace LeaseProtocol

open Transition

variable {Token Time Outcome : Type*}

/-- What happens to one register. -/
inductive Event (Token Time Outcome : Type*) where
  | grant (token : Token) (expires : Time)
  | renew (token : Token) (expires : Time)
  | use (token : Token)
  | lapse (now : Time)
  | finish (token : Token) (outcome : Outcome)

inductive Phase (Token Time Outcome : Type*) where
  | idle
  | held (token : Token) (expires : Time)
  | finished (outcome : Outcome)

/-- The events a phase allows, and where they lead. -/
inductive Moves (reached : Time → Time → Prop) :
    Phase Token Time Outcome → Event Token Time Outcome →
      Phase Token Time Outcome → Prop where
  | grant (token : Token) (expires : Time) :
      Moves reached .idle (.grant token expires) (.held token expires)
  | renew (token : Token) (expires later : Time) :
      Moves reached (.held token expires) (.renew token later) (.held token later)
  | use (token : Token) (expires : Time) :
      Moves reached (.held token expires) (.use token) (.held token expires)
  | lapse (token : Token) (expires now : Time) (hlapsed : reached expires now) :
      Moves reached (.held token expires) (.lapse now) .idle
  | finish (token : Token) (expires : Time) (outcome : Outcome) :
      Moves reached (.held token expires) (.finish token outcome) (.finished outcome)

/-- A history of events the protocol allows. -/
abbrev Allows (reached : Time → Time → Prop) (start : Phase Token Time Outcome)
    (events : List (Event Token Time Outcome))
    (finish : Phase Token Time Outcome) : Prop :=
  Run (Moves reached) start events finish

/-- The token with which a holder acts. -/
def Event.holderToken : Event Token Time Outcome → Option Token
  | .renew token _ => some token
  | .use token => some token
  | .finish token _ => some token
  | .grant _ _ => none
  | .lapse _ => none

/-- Events during which the current lease stays in force. -/
def Event.KeepsLease : Event Token Time Outcome → Prop
  | .renew _ _ => True
  | .use _ => True
  | .grant _ _ => False
  | .lapse _ => False
  | .finish _ _ => False

def Event.isFinish : Event Token Time Outcome → Bool
  | .finish _ _ => true
  | _ => false

/-- The most recent grant of the history handed out this token, and neither a
lapse nor a finish has happened since. -/
def HeldBy (events : List (Event Token Time Outcome)) (token : Token) : Prop :=
  ∃ before expires since,
    events = before ++ .grant token expires :: since ∧
      ∀ event ∈ since, event.KeepsLease

theorem HeldBy.snoc {events : List (Event Token Time Outcome)} {token : Token}
    {event : Event Token Time Outcome}
    (hheld : HeldBy events token) (hkeeps : event.KeepsLease) :
    HeldBy (events ++ [event]) token := by
  obtain ⟨before, expires, since, hevents, hsince⟩ := hheld
  refine ⟨before, expires, since ++ [event], by simp [hevents], ?_⟩
  intro other hmem
  rcases List.mem_append.mp hmem with hold | hnew
  · exact hsince other hold
  · rw [List.mem_singleton.mp hnew]
    exact hkeeps

theorem HeldBy.of_grant (events : List (Event Token Time Outcome))
    (token : Token) (expires : Time) :
    HeldBy (events ++ [.grant token expires]) token :=
  ⟨events, expires, [], rfl, by simp⟩

private theorem countP_isFinish_snoc (past : List (Event Token Time Outcome))
    {event : Event Token Time Outcome} (hevent : event.isFinish = false) :
    (past ++ [event]).countP Event.isFinish = past.countP Event.isFinish := by
  simp [List.countP_append, hevent]

section Order

variable {reached : Time → Time → Prop} {events : List (Event Token Time Outcome)}
  {phase : Phase Token Time Outcome}

theorem allows_singleton {start finish : Phase Token Time Outcome}
    {event : Event Token Time Outcome} :
    Allows reached start [event] finish ↔ Moves reached start event finish := run_singleton

/-- What a phase reached from the idle register says about its history. -/
def Reflects (events : List (Event Token Time Outcome)) :
    Phase Token Time Outcome → Prop
  | .idle => events.countP Event.isFinish = 0
  | .held token _ =>
      events.countP Event.isFinish = 0 ∧ HeldBy events token
  | .finished outcome =>
      ∃ before token,
        events = before ++ [.finish token outcome] ∧
          before.countP Event.isFinish = 0

theorem reflects_of_allows (hallows : Allows reached .idle events phase) :
    Reflects events phase := by
  refine Run.invariant (fun past state => Reflects past state) ?_ ?_ hallows
  · simp [Reflects]
  · intro past before event after hpast hmove
    cases hmove with
    | grant token expires =>
        exact ⟨(countP_isFinish_snoc past rfl).trans hpast, HeldBy.of_grant past token expires⟩
    | renew token expires later =>
        obtain ⟨hnone, hheld⟩ := hpast
        exact ⟨(countP_isFinish_snoc past rfl).trans hnone, hheld.snoc trivial⟩
    | use token expires =>
        obtain ⟨hnone, hheld⟩ := hpast
        exact ⟨(countP_isFinish_snoc past rfl).trans hnone, hheld.snoc trivial⟩
    | lapse token expires now hlapsed =>
        exact (countP_isFinish_snoc past rfl).trans hpast.1
    | finish token expires outcome =>
        exact ⟨past, token, rfl, hpast.1⟩

/-- A finished register never moves again. -/
theorem allows_finished {outcome : Outcome}
    (hallows : Allows reached (.finished outcome) events phase) :
    events = [] ∧ phase = .finished outcome := by
  cases events with
  | nil => exact ⟨rfl, hallows.symm⟩
  | cons event rest =>
      obtain ⟨middle, hmove, _⟩ := hallows
      cases hmove

/-- Exclusivity of outcomes: a register is finished at most once. -/
theorem countP_isFinish_le_one (hallows : Allows reached .idle events phase) :
    events.countP Event.isFinish ≤ 1 := by
  have hreflects := reflects_of_allows hallows
  cases phase with
  | idle => exact hreflects.le.trans zero_le_one
  | held token expires => exact hreflects.1.le.trans zero_le_one
  | finished outcome =>
      obtain ⟨before, token, hevents, hnone⟩ := hreflects
      simp [hevents, List.countP_append, hnone, Event.isFinish]

/-- A holder event succeeds only with the token of the most recent grant,
with no lapse and no finish in between. -/
theorem heldBy_of_holderToken {past rest : List (Event Token Time Outcome)}
    {event : Event Token Time Outcome} {token : Token}
    (htoken : event.holderToken = some token)
    (hallows : Allows reached .idle (past ++ event :: rest) phase) :
    HeldBy past token := by
  obtain ⟨middle, hpast, next, hmove, _⟩ := run_append.mp hallows
  have hreflects := reflects_of_allows hpast
  cases hmove <;> simp [Event.holderToken] at htoken <;> subst htoken <;>
    exact hreflects.2

/-- The outcome of a finished register is that of its one finish event. -/
theorem finish_mem_of_allows_finished {outcome : Outcome}
    (hallows : Allows reached .idle events (.finished outcome)) :
    ∃ before token, events = before ++ [.finish token outcome] := by
  obtain ⟨before, token, hevents, _⟩ := reflects_of_allows hallows
  exact ⟨before, token, hevents⟩

end Order

end LeaseProtocol
