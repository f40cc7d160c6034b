import Mathlib.Data.Nat.Count
import Mathlib.Data.Int.CardIntervalMod
import Mathlib.Tactic

/-!
# Weighted polling of two queues

`SqsQueueSchedule` and `receive_weighted_sqs_message`: the queue which is polled
first follows a cursor, and the other one is polled when the first gives no
message.  What the queues answer is left to the environment.
-/

namespace SeizaServer.Sqs

inductive SqsQueueClass where
  | priority | normal
  deriving DecidableEq, Repr

/-- The class of the fallback queue. -/
def SqsQueueClass.other : SqsQueueClass → SqsQueueClass
  | .priority => .normal
  | .normal => .priority

structure SqsQueueSchedule where
  priorityWeight : ℕ
  cursor : ℕ

def usizeMax : ℕ := 2 ^ 64 - 1

namespace SqsQueueSchedule

def new (priorityWeight : ℕ) : SqsQueueSchedule := ⟨max priorityWeight 1, 0⟩

/-- The class to poll first; `none` is the panic of `priority_weight + 1`. -/
def next (schedule : SqsQueueSchedule) : Option (SqsQueueClass × SqsQueueSchedule) :=
  let cls := if schedule.cursor < schedule.priorityWeight then .priority else .normal
  if schedule.priorityWeight < usizeMax then
    some (cls, ⟨schedule.priorityWeight, (schedule.cursor + 1) % (schedule.priorityWeight + 1)⟩)
  else none

end SqsQueueSchedule

/-! ## One call -/

/-- The contexts of an error, the outermost first. -/
abbrev Contexts := List String

/-- A receive that was made: its arguments and what came back. -/
structure Poll (Message : Type) where
  cls : SqsQueueClass
  queueUrl : String
  visibilityTimeout : Int32
  waitTimeSeconds : Int32
  answer : Except Contexts (Option Message)

/-- What a call did: its receives in order, and its result. -/
structure Receipt (Message : Type) where
  polls : List (Poll Message)
  result : Except Contexts (Option (SqsQueueClass × Message))

structure Queues where
  normalQueueUrl : String
  priorityQueueUrl : String
  visibilityTimeout : Int32

def sqsPriorityPollSeconds : Int32 := 2

variable {Message : Type}

/-- The receive on the queue of a class. -/
def Queues.poll (queues : Queues) (cls : SqsQueueClass)
    (answer : Except Contexts (Option Message)) : Poll Message where
  cls := cls
  queueUrl :=
    match cls with
    | .priority => queues.priorityQueueUrl
    | .normal => queues.normalQueueUrl
  visibilityTimeout := queues.visibilityTimeout
  waitTimeSeconds := sqsPriorityPollSeconds
  answer := answer

/-- The receives of one call are answered by `answers 0` and `answers 1`. -/
def Queues.receive (queues : Queues) (preferred : SqsQueueClass)
    (answers : ℕ → Except Contexts (Option Message)) : Receipt Message :=
  let fallback := preferred.other
  let both := [queues.poll preferred (answers 0), queues.poll fallback (answers 1)]
  match answers 0 with
  | .ok (some message) =>
      ⟨[queues.poll preferred (answers 0)], .ok (some (preferred, message))⟩
  | .ok none =>
      match answers 1 with
      | .ok message => ⟨both, .ok (message.map fun message => (fallback, message))⟩
      | .error _ => ⟨both, .ok none⟩
  | .error _ =>
      match answers 1 with
      | .ok message => ⟨both, .ok (message.map fun message => (fallback, message))⟩
      | .error contexts => ⟨both, .error ("receiving from both SQS queues failed" :: contexts)⟩

def receiveWeightedSqsMessage (queues : Queues) (schedule : SqsQueueSchedule)
    (answers : ℕ → Except Contexts (Option Message)) :
    Option (Receipt Message × SqsQueueSchedule) :=
  schedule.next.map fun (preferred, schedule) => (queues.receive preferred answers, schedule)

/-- Calls one after the other, with what each of them was answered. -/
def receiveAll (queues : Queues) :
    SqsQueueSchedule → List (ℕ → Except Contexts (Option Message)) →
      Option (List (Receipt Message))
  | _, [] => some []
  | schedule, answers :: calls =>
      match receiveWeightedSqsMessage queues schedule answers with
      | none => none
      | some (receipt, schedule) =>
          (receiveAll queues schedule calls).map fun receipts => receipt :: receipts

/-- The class of the queue polled first. -/
def Receipt.pollsFirst (receipt : Receipt Message) : Option SqsQueueClass :=
  receipt.polls.head?.map Poll.cls

/-- The class of the message returned. -/
def Receipt.returns (receipt : Receipt Message) : Option SqsQueueClass :=
  match receipt.result with
  | .ok (some (cls, _)) => some cls
  | _ => none

/-- The queue of the class has a message whenever it is polled. -/
def Supplies (cls : SqsQueueClass) (receipts : List (Receipt Message)) : Prop :=
  ∀ receipt ∈ receipts, ∀ poll ∈ receipt.polls, poll.cls = cls →
    ∃ message, poll.answer = .ok (some message)

/-! ## What a call does with its answers -/

section Call

variable (queues : Queues) (preferred : SqsQueueClass)
  (answers : ℕ → Except Contexts (Option Message))

theorem pollsFirst_receive : (queues.receive preferred answers).pollsFirst = some preferred := by
  unfold Queues.receive Receipt.pollsFirst
  split
  · rfl
  · split <;> rfl
  · split <;> rfl

/-- Either the first answer is a message and the only one, or both queues are
polled and the first gave no message. -/
theorem receive_cases :
    (∃ message, answers 0 = .ok (some message) ∧
      queues.receive preferred answers =
        ⟨[queues.poll preferred (answers 0)], .ok (some (preferred, message))⟩) ∨
    ((∀ message, answers 0 ≠ .ok (some message)) ∧
      (queues.receive preferred answers).polls =
        [queues.poll preferred (answers 0), queues.poll preferred.other (answers 1)] ∧
      (∀ message, answers 1 = .ok message →
        (queues.receive preferred answers).result =
          .ok (message.map fun message => (preferred.other, message))) ∧
      ∀ contexts, answers 1 = .error contexts →
        (∃ first, answers 0 = .error first ∧ (queues.receive preferred answers).result =
          .error ("receiving from both SQS queues failed" :: contexts)) ∨
        (queues.receive preferred answers).result = .ok none) := by
  unfold Queues.receive
  cases hfirst : answers 0 with
  | ok received =>
      cases received with
      | some message => exact .inl ⟨message, rfl, rfl⟩
      | none =>
          right
          cases hsecond : answers 1 with
          | ok message => simp
          | error contexts => simp
  | error first =>
      right
      cases hsecond : answers 1 with
      | ok message => simp
      | error contexts => simp

/-- A message ends the call and is its result. -/
theorem receive_of_message {front back : List (Poll Message)} {poll : Poll Message}
    {message : Message}
    (hpolls : (queues.receive preferred answers).polls = front ++ poll :: back)
    (hanswer : poll.answer = .ok (some message)) :
    back = [] ∧ (queues.receive preferred answers).result = .ok (some (poll.cls, message)) := by
  rcases receive_cases queues preferred answers with
    ⟨found, hfound, hcall⟩ | ⟨hnone, hboth, hsecond, _⟩
  · rw [hcall] at hpolls ⊢
    obtain ⟨hfront, hpoll, hback⟩ : front = [] ∧ queues.poll preferred (answers 0) = poll ∧
        [] = back := by
      cases front with
      | nil => simpa using hpolls
      | cons first front => simp at hpolls
    have hmessage : answers 0 = .ok (some message) := by
      rw [← hanswer, ← hpoll]
      rfl
    rw [hfound] at hmessage
    refine ⟨hback.symm, ?_⟩
    rw [← hpoll]
    cases hmessage
    rfl
  · rw [hboth] at hpolls
    cases front with
    | nil =>
        obtain ⟨hpoll, -⟩ := List.cons.inj hpolls
        rw [← hpoll] at hanswer
        exact absurd hanswer (hnone message)
    | cons first front =>
        obtain ⟨hfront, hpoll, hback⟩ : front = [] ∧
            queues.poll preferred.other (answers 1) = poll ∧ [] = back := by
          cases front with
          | nil => simpa using (List.cons.inj hpolls).2
          | cons second front => simp at hpolls
        rw [← hpoll] at hanswer ⊢
        exact ⟨hback.symm, hsecond (some message) hanswer⟩

/-- An error says that both receives failed. -/
theorem receive_error {contexts : Contexts}
    (herror : (queues.receive preferred answers).result = .error contexts) :
    (queues.receive preferred answers).polls.map Poll.cls = [preferred, preferred.other] ∧
      ∀ poll ∈ (queues.receive preferred answers).polls,
        ∃ contexts, poll.answer = .error contexts := by
  rcases receive_cases queues preferred answers with
    ⟨found, _, hcall⟩ | ⟨_, hboth, hsecond, hfailed⟩
  · rw [hcall] at herror
    cases herror
  · rw [hboth]
    refine ⟨rfl, ?_⟩
    cases hanswer : answers 1 with
    | ok message =>
        rw [hsecond message hanswer] at herror
        cases herror
    | error second =>
        rcases hfailed second hanswer with ⟨first, hfirst, _⟩ | hnone
        · intro poll hpoll
          simp only [List.mem_cons, List.not_mem_nil, or_false] at hpoll
          rcases hpoll with heq | heq
          · exact ⟨first, by rw [heq]; exact hfirst⟩
          · exact ⟨second, by rw [heq]; rfl⟩
        · rw [hnone] at herror
          cases herror

/-- With the queue polled first supplied, its message is returned. -/
theorem returns_receive
    (hsupplies : ∀ poll ∈ (queues.receive preferred answers).polls, poll.cls = preferred →
      ∃ message, poll.answer = .ok (some message)) :
    (queues.receive preferred answers).returns = some preferred := by
  rcases receive_cases queues preferred answers with
    ⟨found, _, hcall⟩ | ⟨hnone, hboth, _⟩
  · rw [hcall]
    rfl
  · obtain ⟨message, hmessage⟩ := hsupplies (queues.poll preferred (answers 0))
      (by rw [hboth]; exact List.mem_cons_self) rfl
    exact absurd hmessage (hnone message)

end Call

/-! ## The cursor -/

/-- The class polled first by the call with this number. -/
def preferredAt (weight index : ℕ) : SqsQueueClass :=
  if index % (weight + 1) < weight then .priority else .normal

theorem next_eq {weight : ℕ} (hweight : weight < usizeMax) (index : ℕ) :
    SqsQueueSchedule.next ⟨weight, index % (weight + 1)⟩ =
      some (preferredAt weight index, ⟨weight, (index + 1) % (weight + 1)⟩) := by
  rw [SqsQueueSchedule.next, if_pos hweight, Nat.mod_add_mod]
  rfl

/-- The calls of a run are those of the cursor's classes, one after the other. -/
theorem receiveAll_eq (queues : Queues) {weight : ℕ} (hweight : weight < usizeMax)
    (calls : List (ℕ → Except Contexts (Option Message))) (index : ℕ) :
    receiveAll queues ⟨weight, index % (weight + 1)⟩ calls =
      some (calls.mapIdx fun offset answers =>
        queues.receive (preferredAt weight (index + offset)) answers) := by
  induction calls generalizing index with
  | nil => rfl
  | cons answers calls ih =>
      rw [receiveAll, receiveWeightedSqsMessage, next_eq hweight]
      simp only [Option.map_some, ih (index + 1), List.mapIdx_cons, Nat.add_zero]
      congr 3
      funext offset
      rw [Nat.add_right_comm, Nat.add_assoc]

/-- A run that made a call had a weight its schedule can count to. -/
theorem weight_lt_of_receiveAll {queues : Queues} {schedule : SqsQueueSchedule}
    {answers : ℕ → Except Contexts (Option Message)}
    {calls : List (ℕ → Except Contexts (Option Message))} {receipts : List (Receipt Message)}
    (hrun : receiveAll queues schedule (answers :: calls) = some receipts) :
    schedule.priorityWeight < usizeMax := by
  by_contra hlarge
  rw [receiveAll, receiveWeightedSqsMessage, SqsQueueSchedule.next, if_neg hlarge] at hrun
  cases hrun

theorem preferredAt_eq_normal {weight index : ℕ} :
    preferredAt weight index = .normal ↔ index % (weight + 1) = weight := by
  have hlt : index % (weight + 1) < weight + 1 := Nat.mod_lt _ (Nat.succ_pos weight)
  unfold preferredAt
  split_ifs with hcursor
  · exact iff_of_false nofun hcursor.ne
  · exact iff_of_true rfl (by omega)

theorem preferredAt_eq_priority {weight index : ℕ} :
    preferredAt weight index = .priority ↔ index % (weight + 1) ≠ weight := by
  rw [ne_eq, ← preferredAt_eq_normal]
  cases preferredAt weight index <;> simp

/-- Exactly one of as many consecutive calls as the cursor has places polls the
normal queue first. -/
theorem exists_normal (weight start : ℕ) :
    ∃ offset ≤ weight, ∀ other ≤ weight,
      preferredAt weight (start + other) = .normal ↔ other = offset := by
  have hlt : start % (weight + 1) < weight + 1 := Nat.mod_lt _ (Nat.succ_pos weight)
  refine ⟨weight - start % (weight + 1), Nat.sub_le _ _, ?_⟩
  intro other hother
  rw [preferredAt_eq_normal, ← Nat.mod_add_mod]
  by_cases hwraps : start % (weight + 1) + other < weight + 1
  · rw [Nat.mod_eq_of_lt hwraps]
    omega
  · rw [Nat.mod_eq_sub_mod (not_lt.mp hwraps), Nat.mod_eq_of_lt (by omega)]
    omega

/-! ## Runs -/

section Runs

variable {queues : Queues} {weight : ℕ} {calls : List (ℕ → Except Contexts (Option Message))}
  {receipts : List (Receipt Message)}

/-- The call with this number and what it was answered. -/
theorem getElem?_of_receiveAll
    (hrun : receiveAll queues (.new weight) calls = some receipts) (index : ℕ) :
    receipts[index]? = calls[index]?.map fun answers =>
      queues.receive (preferredAt (max weight 1) index) answers := by
  cases calls with
  | nil =>
      cases hrun
      rfl
  | cons answers rest =>
      have hweight : max weight 1 < usizeMax := weight_lt_of_receiveAll hrun
      have hall := receiveAll_eq queues hweight (answers :: rest) 0
      rw [Nat.zero_mod] at hall
      have heq := Option.some.inj (hrun.symm.trans hall)
      rw [heq, List.getElem?_mapIdx, Nat.zero_add]

theorem pollsFirst_of_receiveAll
    (hrun : receiveAll queues (.new weight) calls = some receipts) {index : ℕ}
    {receipt : Receipt Message} (hreceipt : receipts[index]? = some receipt) :
    receipt.pollsFirst = some (preferredAt (max weight 1) index) := by
  rw [getElem?_of_receiveAll hrun, Option.map_eq_some_iff] at hreceipt
  obtain ⟨answers, _, hreceive⟩ := hreceipt
  rw [← hreceive]
  exact pollsFirst_receive queues _ answers

/-- A supplied queue delivers in every call that polls it first. -/
theorem returns_of_receiveAll
    (hrun : receiveAll queues (.new weight) calls = some receipts) {index : ℕ}
    {receipt : Receipt Message} (hreceipt : receipts[index]? = some receipt)
    (hsupplies : ∀ poll ∈ receipt.polls, poll.cls = preferredAt (max weight 1) index →
      ∃ message, poll.answer = .ok (some message)) :
    receipt.returns = some (preferredAt (max weight 1) index) := by
  rw [getElem?_of_receiveAll hrun, Option.map_eq_some_iff] at hreceipt
  obtain ⟨answers, _, hreceive⟩ := hreceipt
  rw [← hreceive] at hsupplies ⊢
  exact returns_receive queues _ answers hsupplies

/-- The calls of a window. -/
def window (weight start : ℕ) (receipts : List (Receipt Message)) : List (Receipt Message) :=
  (receipts.drop start).take (max weight 1 + 1)

theorem getElem?_window {start offset : ℕ} (hoffset : offset ≤ max weight 1) :
    (window weight start receipts)[offset]? = receipts[start + offset]? := by
  rw [window, List.getElem?_take_of_lt (Nat.lt_succ_of_le hoffset), List.getElem?_drop]

theorem length_window {start : ℕ} (hlong : start + max weight 1 + 1 ≤ receipts.length) :
    (window weight start receipts).length = max weight 1 + 1 := by
  rw [window, List.length_take, List.length_drop]
  omega

theorem normal_of_supplies
    (hrun : receiveAll queues (.new weight) calls = some receipts) {start : ℕ}
    (hlong : start + max weight 1 + 1 ≤ receipts.length)
    (hsupplies : Supplies .normal (window weight start receipts)) :
    ∃ receipt ∈ window weight start receipts, receipt.returns = some .normal := by
  obtain ⟨offset, hoffset, hunique⟩ := exists_normal (max weight 1) start
  have hnormal := (hunique offset hoffset).mpr rfl
  have hbound : start + offset < receipts.length := by omega
  have hreceipt := List.getElem?_eq_getElem hbound
  have hmem : receipts[start + offset] ∈ window weight start receipts := by
    apply List.mem_of_getElem?
    rw [getElem?_window hoffset, hreceipt]
  refine ⟨_, hmem, ?_⟩
  have hreturns := returns_of_receiveAll hrun hreceipt fun poll hpoll hcls =>
    hsupplies _ hmem poll hpoll (hcls.trans hnormal)
  rw [hreturns, hnormal]

theorem priority_of_supplies
    (hrun : receiveAll queues (.new weight) calls = some receipts) {start : ℕ}
    (hlong : start + max weight 1 + 1 ≤ receipts.length)
    (hsupplies : Supplies .priority (window weight start receipts)) :
    max weight 1 ≤ (window weight start receipts).countP fun receipt =>
      receipt.returns = some .priority := by
  obtain ⟨offset, hoffset, hunique⟩ := exists_normal (max weight 1) start
  have hlength := length_window hlong
  -- All calls of the window but the one that polls the normal queue first.
  have hothers : ∀ receipt ∈ (window weight start receipts).eraseIdx offset,
      decide (receipt.returns = some .priority) = true := by
    intro receipt hmem
    obtain ⟨other, hne, hother⟩ := List.mem_eraseIdx_iff_getElem?.mp hmem
    obtain ⟨hbound, _⟩ := List.getElem?_eq_some_iff.mp hother
    have hwithin : other ≤ max weight 1 := by omega
    have hpriority : preferredAt (max weight 1) (start + other) = .priority := by
      rw [preferredAt_eq_priority, ne_eq, ← preferredAt_eq_normal, hunique other hwithin]
      exact hne
    have hreceipt : receipts[start + other]? = some receipt := by
      rw [← getElem?_window hwithin, hother]
    apply decide_eq_true
    have hreturns := returns_of_receiveAll hrun hreceipt fun poll hpoll hcls =>
      hsupplies receipt (List.mem_of_getElem? hother) poll hpoll (hcls.trans hpriority)
    rw [hreturns, hpriority]
  have hcount := (List.eraseIdx_sublist (window weight start receipts) offset).countP_le
    (p := fun receipt => decide (receipt.returns = some .priority))
  rw [List.countP_eq_length.mpr hothers, List.length_eraseIdx_of_lt (by omega), hlength] at hcount
  exact hcount

theorem pollsFirst_eq
    (hrun : receiveAll queues (.new weight) calls = some receipts) {index : ℕ}
    (hbound : index < receipts.length) :
    receipts[index]?.bind Receipt.pollsFirst = some (preferredAt (max weight 1) index) := by
  rw [List.getElem?_eq_getElem hbound]
  exact pollsFirst_of_receiveAll hrun (List.getElem?_eq_getElem hbound)

theorem priority_between
    (hrun : receiveAll queues (.new weight) calls = some receipts) {first second : ℕ}
    (hlt : first < second)
    (hfirst : receipts[first]?.bind Receipt.pollsFirst = some .normal)
    (hsecond : receipts[second]?.bind Receipt.pollsFirst = some .normal)
    (hbetween : ∀ between, first < between → between < second →
      receipts[between]?.bind Receipt.pollsFirst ≠ some .normal) :
    second - first - 1 = max weight 1 ∧
      ∀ between, first < between → between < second →
        receipts[between]?.bind Receipt.pollsFirst = some .priority := by
  have hbound : second < receipts.length := by
    by_contra hout
    rw [List.getElem?_eq_none (not_lt.mp hout)] at hsecond
    cases hsecond
  have hpreferred : ∀ index ≤ second,
      receipts[index]?.bind Receipt.pollsFirst = some (preferredAt (max weight 1) index) :=
    fun index hindex => pollsFirst_eq hrun (by omega)
  rw [hpreferred first hlt.le, Option.some.injEq] at hfirst
  rw [hpreferred second le_rfl, Option.some.injEq] at hsecond
  obtain ⟨offset, hoffset, hunique⟩ := exists_normal (max weight 1) (first + 1)
  -- The cursor is back where it was after `max weight 1 + 1` calls.
  have hlast : offset = max weight 1 := by
    refine ((hunique _ le_rfl).mp ?_).symm
    rw [preferredAt_eq_normal] at hfirst ⊢
    rw [Nat.add_assoc, Nat.add_comm 1, Nat.add_mod_right, hfirst]
  subst hlast
  have hatLeast : first + max weight 1 + 1 ≤ second := by
    by_contra hearly
    have hwithin : second - (first + 1) ≤ max weight 1 := by omega
    have hoffset := hunique _ hwithin
    rw [Nat.add_sub_cancel' hlt] at hoffset
    have heq := hoffset.mp hsecond
    omega
  have hatMost : second ≤ first + max weight 1 + 1 := by
    by_contra hlate
    have hcontra := hbetween (first + 1 + max weight 1) (by omega) (by omega)
    rw [hpreferred _ (by omega)] at hcontra
    exact hcontra (congrArg some ((hunique _ le_rfl).mpr rfl))
  refine ⟨by omega, ?_⟩
  intro between hafter hbefore
  have hother := hbetween between hafter hbefore
  rw [hpreferred between hbefore.le] at hother ⊢
  cases hclass : preferredAt (max weight 1) between with
  | priority => rfl
  | normal => exact absurd (congrArg some hclass) hother

end Runs

/-- Weighted polling starves neither queue, whatever the queues answer: the queue
polled first is the normal one once in `max weight 1 + 1` calls, a queue with
messages delivers as often as it is polled first, a message received is returned,
and only two failed receives are an error.  No weight below the largest `usize`
stops a run. -/
theorem weighted_polling (queues : Queues) (weight : ℕ)
    (calls : List (ℕ → Except Contexts (Option Message))) :
    (max weight 1 < usizeMax → (receiveAll queues (.new weight) calls).isSome) ∧
    ∀ receipts, receiveAll queues (.new weight) calls = some receipts →
      receipts.length = calls.length ∧
      (∀ first second, first < second →
        receipts[first]?.bind Receipt.pollsFirst = some .normal →
        receipts[second]?.bind Receipt.pollsFirst = some .normal →
        (∀ between, first < between → between < second →
          receipts[between]?.bind Receipt.pollsFirst ≠ some .normal) →
        second - first - 1 = max weight 1 ∧
          ∀ between, first < between → between < second →
            receipts[between]?.bind Receipt.pollsFirst = some .priority) ∧
      (∀ start, start + max weight 1 + 1 ≤ receipts.length →
        (Supplies .normal (window weight start receipts) →
          ∃ receipt ∈ window weight start receipts, receipt.returns = some .normal) ∧
        (Supplies .priority (window weight start receipts) →
          max weight 1 ≤ (window weight start receipts).countP fun receipt =>
            receipt.returns = some .priority)) ∧
      ∀ receipt ∈ receipts,
        (∀ front poll back message, receipt.polls = front ++ poll :: back →
          poll.answer = .ok (some message) →
          back = [] ∧ receipt.result = .ok (some (poll.cls, message))) ∧
        ∀ contexts, receipt.result = .error contexts →
          receipt.polls.length = 2 ∧
            ∀ poll ∈ receipt.polls, ∃ contexts, poll.answer = .error contexts := by
  constructor
  · intro hweight
    have hall := receiveAll_eq queues hweight calls 0
    rw [Nat.zero_mod] at hall
    exact Option.isSome_iff_exists.mpr ⟨_, hall⟩
  · intro receipts hrun
    have hget := getElem?_of_receiveAll hrun
    refine ⟨?_, ?_, ?_, ?_⟩
    · apply le_antisymm
      · rw [← List.getElem?_eq_none_iff, hget, List.getElem?_eq_none le_rfl]
        rfl
      · rw [← List.getElem?_eq_none_iff, ← Option.map_eq_none_iff, ← hget,
          List.getElem?_eq_none le_rfl]
    · intro first second hlt hfirst hsecond hbetween
      exact priority_between hrun hlt hfirst hsecond hbetween
    · intro start hlong
      exact ⟨normal_of_supplies hrun hlong, priority_of_supplies hrun hlong⟩
    · intro receipt hmem
      obtain ⟨index, hindex⟩ := List.getElem?_of_mem hmem
      rw [hget, Option.map_eq_some_iff] at hindex
      obtain ⟨answers, _, hreceive⟩ := hindex
      rw [← hreceive]
      refine ⟨fun front poll back message => receive_of_message queues _ answers, ?_⟩
      intro contexts herror
      obtain ⟨hclasses, hfailed⟩ := receive_error queues _ answers herror
      refine ⟨?_, hfailed⟩
      rw [← List.length_map (f := Poll.cls), hclasses]
      rfl

end SeizaServer.Sqs
