import SeizaServer.LabelledRun
import SeizaServer.InteractionProgram

/-!
# Interleaved programs over one store

Any number of processes run programs whose requests are served one at a time
by a common store.  A process may stop for ever at any request, and the store
may also move by itself.  The first half gives the transition system and the
fact that a process is the replay of its own answers.  The second half gives a
rely-guarantee rule: a program obeys a contract when every request it issues
meets the contract's guard and every answer keeps the invariant, whatever the
other processes did in between.
-/

namespace Interaction

open Transition

variable {κ Request : Type} {Response : Request → Type} {Fault : Type} {Result : κ → Type}
  {σ : Type}

/-- How the calls of a system are written and how its store serves them. -/
structure System (κ Request : Type) (Response : Request → Type) (Fault : Type)
    (Result : κ → Type) (σ : Type) where
  body : (call : κ) → Program Request Response Fault (Result call)
  admits : ℕ → σ → κ → Prop
  answers : ℕ → σ → (r : Request) → Response r → σ → Prop
  halts : ℕ → σ → σ → Prop
  environment : σ → σ → Prop

/-- The store, and what every started process still has to do. -/
structure Configuration (κ Request : Type) (Response : Request → Type) (Fault : Type)
    (Result : κ → Type) (σ : Type) where
  store : σ
  process : ℕ → Option ((call : κ) × Program Request Response Fault (Result call))

/-- The configuration before any process has started. -/
def Configuration.idle (store : σ) : Configuration κ Request Response Fault Result σ :=
  ⟨store, fun _ => none⟩

inductive Label (κ Request : Type) (Response : Request → Type) (Fault : Type) where
  | start (pid : ℕ) (call : κ)
  | ask (pid : ℕ) (r : Request) (reply : Response r)
  | halt (pid : ℕ) (cause : Fault)
  | environment

namespace System

variable {system : System κ Request Response Fault Result σ}

/-- One step: a process starts, has one request answered or stops for ever, or
the store moves by itself. -/
inductive Step (system : System κ Request Response Fault Result σ) :
    Configuration κ Request Response Fault Result σ → Label κ Request Response Fault →
      Configuration κ Request Response Fault Result σ → Prop where
  | start {config : Configuration κ Request Response Fault Result σ} (pid : ℕ) (call : κ)
      (hfree : config.process pid = none) (hadmits : system.admits pid config.store call) :
      Step system config (.start pid call)
        ⟨config.store, Function.update config.process pid (some ⟨call, system.body call⟩)⟩
  | ask {config : Configuration κ Request Response Fault Result σ} (pid : ℕ) (call : κ)
      (r : Request) (next : Response r → Program Request Response Fault (Result call))
      (reply : Response r) (after : σ)
      (hprocess : config.process pid = some ⟨call, .request r next⟩)
      (hanswers : system.answers pid config.store r reply after) :
      Step system config (.ask pid r reply)
        ⟨after, Function.update config.process pid (some ⟨call, next reply⟩)⟩
  | halt {config : Configuration κ Request Response Fault Result σ} (pid : ℕ) (call : κ)
      (r : Request) (next : Response r → Program Request Response Fault (Result call))
      (cause : Fault) (after : σ)
      (hprocess : config.process pid = some ⟨call, .request r next⟩)
      (hhalts : system.halts pid config.store after) :
      Step system config (.halt pid cause)
        ⟨after, Function.update config.process pid (some ⟨call, .fault cause⟩)⟩
  | environment {config : Configuration κ Request Response Fault Result σ} (after : σ)
      (hmoves : system.environment config.store after) :
      Step system config .environment ⟨after, config.process⟩

/-- The system with only those answers which satisfy a condition. -/
def restrict (system : System κ Request Response Fault Result σ)
    (condition : ℕ → σ → (r : Request) → Response r → Prop) :
    System κ Request Response Fault Result σ :=
  { system with
    answers := fun pid store r reply after =>
      system.answers pid store r reply after ∧ condition pid store r reply }

end System

/-! ## A process is the replay of its own answers -/

namespace Program

variable {α β : Type}

/-- Feeding the displayed answers to a program leads to the other program. -/
def Replays (program : Program Request Response Fault α) :
    List ((r : Request) × Response r) → Program Request Response Fault α → Prop
  | [], final => program = final
  | answer :: rest, final =>
      ∃ next, program = .request answer.1 next ∧ (next answer.2).Replays rest final

theorem Replays.snoc {program : Program Request Response Fault α}
    {answers : List ((r : Request) × Response r)} {r : Request}
    {next : Response r → Program Request Response Fault α}
    (hreplays : program.Replays answers (.request r next)) (reply : Response r) :
    program.Replays (answers ++ [⟨r, reply⟩]) (next reply) := by
  induction answers generalizing program with
  | nil => exact ⟨next, hreplays, rfl⟩
  | cons answer rest ih =>
      obtain ⟨following, hprogram, hrest⟩ := hreplays
      exact ⟨following, hprogram, ih hrest⟩

/-- A program that returned after a request had that request answered. -/
theorem Replays.of_request {r : Request} {next : Response r → Program Request Response Fault α}
    {answers : List ((r : Request) × Response r)} {result : α}
    (hreplays : (Program.request r next).Replays answers (.done result)) :
    ∃ reply rest, answers = ⟨r, reply⟩ :: rest ∧ (next reply).Replays rest (.done result) := by
  cases answers with
  | nil => cases hreplays
  | cons answer rest =>
      obtain ⟨following, hrequest, hrest⟩ := hreplays
      cases hrequest
      exact ⟨answer.2, rest, rfl, hrest⟩

theorem Replays.of_fault {cause : Fault} {answers : List ((r : Request) × Response r)} {result : α}
    (hreplays : (Program.fault cause).Replays answers (.done result)) : False := by
  cases answers with
  | nil => cases hreplays
  | cons answer rest =>
      obtain ⟨_, hrequest, _⟩ := hreplays
      cases hrequest

theorem Replays.of_done {value : α} {answers : List ((r : Request) × Response r)} {result : α}
    (hreplays : (Program.done value : Program Request Response Fault α).Replays answers
      (.done result)) : answers = [] ∧ value = result := by
  cases answers with
  | nil =>
      cases hreplays
      exact ⟨rfl, rfl⟩
  | cons answer rest =>
      obtain ⟨_, hrequest, _⟩ := hreplays
      cases hrequest

/-- A request that a program is about to issue is one it issues. -/
theorem Replays.issues {P : Request → Prop} {program : Program Request Response Fault α}
    {answers : List ((r : Request) × Response r)} {r : Request}
    {next : Response r → Program Request Response Fault α}
    (hreplays : program.Replays answers (.request r next)) (hissues : program.Issues P) : P r := by
  induction answers generalizing program with
  | nil =>
      rw [show program = .request r next from hreplays] at hissues
      exact hissues.1
  | cons answer rest ih =>
      obtain ⟨following, hprogram, hrest⟩ := hreplays
      subst hprogram
      exact ih hrest (hissues.2 answer.2)

/-- A program that issues a request and has become something else has had the
request answered. -/
theorem Replays.of_request_ne {r : Request} {next : Response r → Program Request Response Fault α}
    {final : Program Request Response Fault α} {answers : List ((r : Request) × Response r)}
    (hreplays : (Program.request r next).Replays answers final)
    (hne : Program.request r next ≠ final) :
    ∃ reply rest, answers = ⟨r, reply⟩ :: rest ∧ (next reply).Replays rest final := by
  cases answers with
  | nil => exact absurd hreplays hne
  | cons answer rest =>
      obtain ⟨_, hrequest, hrest⟩ := hreplays
      cases hrequest
      exact ⟨answer.2, rest, rfl, hrest⟩

/-- A failed program stays failed. -/
theorem Replays.eq_of_fault {cause : Fault} {final : Program Request Response Fault α}
    {answers : List ((r : Request) × Response r)}
    (hreplays : (Program.fault cause).Replays answers final) : final = .fault cause := by
  cases answers with
  | nil => exact hreplays.symm
  | cons answer rest =>
      obtain ⟨_, hrequest, _⟩ := hreplays
      cases hrequest

/-- A composition that returned did so through a value of its first part. -/
theorem Replays.of_bind {program : Program Request Response Fault α}
    {f : α → Program Request Response Fault β} {answers : List ((r : Request) × Response r)}
    {result : β} (hreplays : (program >>= f).Replays answers (.done result)) :
    ∃ value first second, answers = first ++ second ∧ program.Replays first (.done value) ∧
      (f value).Replays second (.done result) := by
  induction program generalizing answers with
  | done value => exact ⟨value, [], answers, rfl, rfl, hreplays⟩
  | fault cause => exact hreplays.of_fault.elim
  | request r next ih =>
      obtain ⟨reply, rest, rfl, hrest⟩ := Replays.of_request hreplays
      obtain ⟨value, first, second, rfl, hfirst, hsecond⟩ := ih reply hrest
      exact ⟨value, ⟨r, reply⟩ :: first, second, rfl, ⟨next, rfl, hfirst⟩, hsecond⟩

/-- Every request of the program satisfies a condition on it and on the answers
received before it. -/
def IssuesKnowing (P : List ((r : Request) × Response r) → Request → Prop) :
    Program Request Response Fault α → List ((r : Request) × Response r) → Prop
  | .done _, _ => True
  | .fault _, _ => True
  | .request r next, known =>
      P known r ∧ ∀ answer, (next answer).IssuesKnowing P (known ++ [⟨r, answer⟩])

theorem Replays.issuesKnowing {P : List ((r : Request) × Response r) → Request → Prop}
    {program : Program Request Response Fault α} {answers known : List ((r : Request) × Response r)}
    {r : Request} {next : Response r → Program Request Response Fault α}
    (hreplays : program.Replays answers (.request r next))
    (hissues : program.IssuesKnowing P known) : P (known ++ answers) r := by
  induction answers generalizing program known with
  | nil =>
      rw [show program = .request r next from hreplays] at hissues
      rw [List.append_nil]
      exact hissues.1
  | cons answer rest ih =>
      obtain ⟨following, hprogram, hrest⟩ := hreplays
      subst hprogram
      have hlater := ih hrest (hissues.2 answer.2)
      rw [List.append_assoc] at hlater
      exact hlater

/-- The answers to the calls of a program whose calls were carried out by
programs: the answers of each of these stand together. -/
theorem Replays.of_expand {Call : Type} {Answer : Call → Type}
    {handler : (call : Call) → Program Request Response Fault (Answer call)}
    {program : Program Call Answer Fault α} {answers : List ((r : Request) × Response r)} {value : α}
    (hreplays : (program.expand handler).Replays answers (.done value)) :
    ∃ calls : List ((call : Call) × Answer call), program.Replays calls (.done value) ∧
      ∀ entry ∈ calls, ∃ part, (∀ answer ∈ part, answer ∈ answers) ∧
        (handler entry.1).Replays part (.done entry.2) := by
  induction program generalizing answers with
  | done other => exact ⟨[], (hreplays.of_done).2 ▸ rfl, fun _ hmem => by cases hmem⟩
  | fault cause => exact hreplays.of_fault.elim
  | request call next ih =>
      obtain ⟨answer, first, second, hsplit, hfirst, hsecond⟩ := Replays.of_bind hreplays
      obtain ⟨calls, hcalls, hparts⟩ := ih answer hsecond
      refine ⟨⟨call, answer⟩ :: calls, ⟨next, rfl, hcalls⟩, ?_⟩
      intro entry hmem
      rw [List.mem_cons] at hmem
      cases hmem with
      | inl hhead =>
          subst hhead
          refine ⟨first, ?_, hfirst⟩
          intro answer hanswer
          rw [hsplit]
          exact List.mem_append_left _ hanswer
      | inr htail =>
          obtain ⟨part, hpart, hhandled⟩ := hparts entry htail
          refine ⟨part, ?_, hhandled⟩
          intro answer hanswer
          rw [hsplit]
          exact List.mem_append_right _ (hpart answer hanswer)

/-- The answers to a renamed program. -/
theorem Replays.of_relay {Request' : Type} {Response' : Request' → Type}
    {rename : Request → Request'} {back : ∀ r, Response' (rename r) → Response r}
    {program : Program Request Response Fault α} {answers : List ((r : Request') × Response' r)}
    {value : α} (hreplays : (program.relay rename back).Replays answers (.done value)) :
    ∃ inner : List ((r : Request) × Response r), program.Replays inner (.done value) ∧
      ∀ entry ∈ inner, ∃ reply, back entry.1 reply = entry.2 ∧
        (⟨rename entry.1, reply⟩ : (r : Request') × Response' r) ∈ answers := by
  induction program generalizing answers with
  | done other => exact ⟨[], (hreplays.of_done).2 ▸ rfl, fun _ hmem => by cases hmem⟩
  | fault cause => exact hreplays.of_fault.elim
  | request r next ih =>
      obtain ⟨reply, rest, hsplit, hrest⟩ := Replays.of_request hreplays
      obtain ⟨inner, hinner, hentries⟩ := ih (back r reply) hrest
      refine ⟨⟨r, back r reply⟩ :: inner, ⟨next, rfl, hinner⟩, ?_⟩
      intro entry hmem
      rw [List.mem_cons] at hmem
      rw [hsplit]
      cases hmem with
      | inl hhead =>
          subst hhead
          exact ⟨reply, rfl, List.mem_cons_self⟩
      | inr htail =>
          obtain ⟨other, hother, hanswer⟩ := hentries entry htail
          exact ⟨other, hother, List.mem_cons_of_mem _ hanswer⟩

/-- A program that was run for its outcome and returned one. -/
theorem Replays.of_outcome {Fault' : Type} {program : Program Request Response Fault α}
    {answers : List ((r : Request) × Response r)} {result : Except Fault α}
    (hreplays : (program.outcome : Program Request Response Fault' (Except Fault α)).Replays answers
      (.done result)) : program.Replays answers (ofExcept result) := by
  induction program generalizing answers with
  | done value =>
      obtain ⟨hanswers, hresult⟩ := hreplays.of_done
      subst hanswers hresult
      rfl
  | fault cause =>
      obtain ⟨hanswers, hresult⟩ := hreplays.of_done
      subst hanswers hresult
      rfl
  | request r next ih =>
      obtain ⟨reply, rest, hsplit, hrest⟩ := Replays.of_request hreplays
      subst hsplit
      exact ⟨next, rfl, ih reply hrest⟩

end Program

/-- The answers one process received during a run. -/
def answersOf (pid : ℕ) : List (Label κ Request Response Fault) → List ((r : Request) × Response r)
  | [] => []
  | .ask asker r reply :: rest =>
      if asker = pid then ⟨r, reply⟩ :: answersOf pid rest else answersOf pid rest
  | .start _ _ :: rest => answersOf pid rest
  | .halt _ _ :: rest => answersOf pid rest
  | .environment :: rest => answersOf pid rest

theorem answersOf_append (pid : ℕ) (first second : List (Label κ Request Response Fault)) :
    answersOf pid (first ++ second) = answersOf pid first ++ answersOf pid second := by
  induction first with
  | nil => rfl
  | cons label rest ih =>
      cases label with
      | ask asker r reply =>
          by_cases hasker : asker = pid <;> simp [answersOf, hasker, ih]
      | start asker call => simpa [answersOf] using ih
      | halt asker cause => simpa [answersOf] using ih
      | environment => simpa [answersOf] using ih

theorem mem_answersOf {pid : ℕ} {labels : List (Label κ Request Response Fault)}
    {r : Request} {reply : Response r} :
    (⟨r, reply⟩ : (r : Request) × Response r) ∈ answersOf pid labels ↔
      Label.ask pid r reply ∈ labels := by
  induction labels with
  | nil => simp [answersOf]
  | cons label rest ih =>
      cases label with
      | ask asker r' reply' =>
          by_cases hasker : asker = pid
          · subst hasker
            simp only [answersOf, if_pos, List.mem_cons, ih, Label.ask.injEq, true_and]
            constructor
            · rintro (heq | hmem)
              · cases heq
                exact .inl ⟨rfl, HEq.rfl⟩
              · exact .inr hmem
            · rintro (⟨rfl, hreply⟩ | hmem)
              · rw [eq_of_heq hreply]
                exact .inl rfl
              · exact .inr hmem
          · have hne : ¬ pid = asker := fun h => hasker h.symm
            simp [answersOf, hasker, hne, ih]
      | start asker call => simpa [answersOf] using ih
      | halt asker cause => simpa [answersOf] using ih
      | environment => simpa [answersOf] using ih

namespace System

variable {system : System κ Request Response Fault Result σ}

/-- A process that has not been stopped is what its body becomes after the
answers it received. -/
theorem replays_of_run {store : σ} {labels : List (Label κ Request Response Fault)}
    {config : Configuration κ Request Response Fault Result σ}
    (hrun : Run system.Step (.idle store) labels config) {pid : ℕ} {call : κ}
    {program : Program Request Response Fault (Result call)}
    (hprocess : config.process pid = some ⟨call, program⟩) :
    (∃ cause, program = .fault cause) ∨
      (system.body call).Replays (answersOf pid labels) program := by
  have hall := Run.invariant
    (I := fun past (state : Configuration κ Request Response Fault Result σ) =>
      ∀ pid, (state.process pid = none → answersOf pid past = []) ∧
        ∀ call program, state.process pid = some ⟨call, program⟩ →
          (∃ cause, program = .fault cause) ∨
            (system.body call).Replays (answersOf pid past) program)
    (by intro pid; simp [Configuration.idle, answersOf]) ?_ hrun
  · exact (hall pid).2 call program hprocess
  · intro past before label after hpast hlast asker
    obtain ⟨hfreshPast, hreplayPast⟩ := hpast asker
    rw [answersOf_append]
    cases hlast with
    | start pid call hfree hadmits =>
        by_cases hpid : asker = pid
        · subst hpid
          simp only [Function.update_self, reduceCtorEq, IsEmpty.forall_iff, true_and]
          intro call' program' hsome
          cases hsome
          right
          rw [hfreshPast hfree]
          exact rfl
        · simpa [Function.update_of_ne hpid, answersOf] using hpast asker
    | ask pid call r next reply store' hasks hanswers =>
        by_cases hpid : asker = pid
        · subst hpid
          simp only [Function.update_self, reduceCtorEq, IsEmpty.forall_iff, true_and]
          intro call' program' hsome
          cases hsome
          rcases hreplayPast call _ hasks with ⟨cause, hfault⟩ | hreplays
          · cases hfault
          · right
            simpa [answersOf] using hreplays.snoc reply
        · have hne : ¬ pid = asker := fun h => hpid h.symm
          simpa [Function.update_of_ne hpid, answersOf, hne] using hpast asker
    | halt pid call r next cause store' hasks hhalts =>
        by_cases hpid : asker = pid
        · subst hpid
          simp only [Function.update_self, reduceCtorEq, IsEmpty.forall_iff, true_and]
          intro call' program' hsome
          cases hsome
          exact .inl ⟨cause, rfl⟩
        · simpa [Function.update_of_ne hpid, answersOf] using hpast asker
    | environment store' hmoves =>
        simpa [answersOf] using hpast asker

end System

/-! ## A call that is served alone -/

namespace System

variable {system : System κ Request Response Fault Result σ} {pid : ℕ} {call : κ}
  {process : ℕ → Option ((call : κ) × Program Request Response Fault (Result call))}
  {answer : σ → (r : Request) → Except Fault (σ × Response r)} {store after : σ}
  {value : Result call}

/-- The rest of a process that is served alone up to its end is one run. -/
theorem exists_run_of_exec {program : Program Request Response Fault (Result call)}
    (hanswer : ∀ store r after reply, answer store r = .ok (after, reply) →
      system.answers pid store r reply after)
    (hprocess : process pid = some ⟨call, program⟩)
    (hexec : program.exec answer store = (after, .ok value)) :
    ∃ labels, Run system.Step ⟨store, process⟩ labels
      ⟨after, Function.update process pid (some ⟨call, .done value⟩)⟩ := by
  induction program generalizing store process with
  | done result =>
      cases hexec
      refine ⟨[], ?_⟩
      rw [← hprocess, Function.update_eq_self]
      exact rfl
  | fault cause => cases hexec
  | request r next ih =>
      rw [Program.exec_request] at hexec
      cases hserved : answer store r with
      | error cause =>
          rw [hserved] at hexec
          cases hexec
      | ok served =>
          rw [hserved] at hexec
          have hstep : system.Step ⟨store, process⟩ _ _ :=
            Step.ask pid call r next served.2 served.1 hprocess (hanswer store r _ _ hserved)
          have hnext : Function.update process pid (some ⟨call, next served.2⟩) pid =
              some ⟨call, next served.2⟩ := Function.update_self _ _ _
          obtain ⟨labels, hrun⟩ := ih served.2 hnext hexec
          rw [Function.update_idem] at hrun
          exact ⟨.ask pid r served.2 :: labels, _, hstep, hrun⟩

/-- A call that is made and served alone is one run. -/
theorem exists_run_of_call
    (hanswer : ∀ store r after reply, answer store r = .ok (after, reply) →
      system.answers pid store r reply after)
    (hfree : process pid = none) (hadmits : system.admits pid store call)
    (hexec : (system.body call).exec answer store = (after, .ok value)) :
    ∃ labels, Run system.Step ⟨store, process⟩ (.start pid call :: labels)
      ⟨after, Function.update process pid (some ⟨call, .done value⟩)⟩ := by
  have hstart : system.Step ⟨store, process⟩ _ _ := Step.start pid call hfree hadmits
  have hbody : Function.update process pid (some ⟨call, system.body call⟩) pid =
      some ⟨call, system.body call⟩ := Function.update_self _ _ _
  obtain ⟨labels, hrun⟩ := exists_run_of_exec hanswer hbody hexec
  rw [Function.update_idem] at hrun
  exact ⟨labels, _, hstart, hrun⟩

end System

/-! ## Where a label stands in a run -/

namespace System

variable {system : System κ Request Response Fault Result σ}

/-- An answer is given by some configuration of the run. -/
theorem exists_of_ask {config final : Configuration κ Request Response Fault Result σ}
    {labels : List (Label κ Request Response Fault)} (hrun : Run system.Step config labels final)
    {pid : ℕ} {r : Request} {reply : Response r} (hmem : Label.ask pid r reply ∈ labels) :
    ∃ first second before call next after, labels = first ++ .ask pid r reply :: second ∧
      Run system.Step config first before ∧
      before.process pid = some ⟨call, .request r next⟩ ∧
      system.answers pid before.store r reply after ∧
      Run system.Step ⟨after, Function.update before.process pid (some ⟨call, next reply⟩)⟩
        second final := by
  obtain ⟨first, second, hsplit⟩ := List.append_of_mem hmem
  rw [hsplit] at hrun
  obtain ⟨before, hfirst, middle, hstep, hsecond⟩ := run_append.mp hrun
  cases hstep with
  | ask pid call r next reply after hprocess hanswers =>
      exact ⟨first, second, before, call, next, after, hsplit, hfirst, hprocess, hanswers, hsecond⟩

/-- Who was answered had asked. -/
theorem process_of_ask {before after : Configuration κ Request Response Fault Result σ} {pid : ℕ}
    {r : Request} {reply : Response r} (hstep : system.Step before (.ask pid r reply) after) :
    ∃ call next, before.process pid = some ⟨call, .request r next⟩ := by
  cases hstep with
  | ask pid call r next reply store hprocess hanswers => exact ⟨call, next, hprocess⟩

/-- A started process stays. -/
theorem process_stays {config final : Configuration κ Request Response Fault Result σ}
    {labels : List (Label κ Request Response Fault)} (hrun : Run system.Step config labels final)
    {pid : ℕ} (hstarted : config.process pid ≠ none) : final.process pid ≠ none := by
  apply Run.preserves (fun state => state.process pid ≠ none) hstarted _ hrun
  · intro before label after hprocess hstep
    cases hstep with
    | start starter call hfree hadmits =>
        by_cases hsame : pid = starter
        · simp [hsame]
        · simpa [Function.update_of_ne hsame] using hprocess
    | ask asker call r next reply store hasks hanswers =>
        by_cases hsame : pid = asker
        · simp [hsame]
        · simpa [Function.update_of_ne hsame] using hprocess
    | halt halter call r next cause store hasks hhalts =>
        by_cases hsame : pid = halter
        · simp [hsame]
        · simpa [Function.update_of_ne hsame] using hprocess
    | environment store hmoves => exact hprocess

/-- A process keeps its call. -/
theorem call_stays {config final : Configuration κ Request Response Fault Result σ}
    {labels : List (Label κ Request Response Fault)} (hrun : Run system.Step config labels final)
    {pid : ℕ} {call : κ} {program : Program Request Response Fault (Result call)}
    (hprocess : config.process pid = some ⟨call, program⟩) :
    ∃ later : Program Request Response Fault (Result call),
      final.process pid = some ⟨call, later⟩ := by
  apply Run.preserves (fun state => ∃ later : Program Request Response Fault (Result call),
    state.process pid = some ⟨call, later⟩) ⟨program, hprocess⟩ _ hrun
  intro before label after hbefore hstep
  obtain ⟨current, hcurrent⟩ := hbefore
  cases hstep with
  | start starter other hfree hadmits =>
      have hne : pid ≠ starter := by
        intro hsame
        rw [hsame, hfree] at hcurrent
        cases hcurrent
      exact ⟨current, (Function.update_of_ne hne _ _).trans hcurrent⟩
  | ask asker other r next reply store hasking hanswers =>
      by_cases hsame : pid = asker
      · subst hsame
        rw [hcurrent, Option.some.injEq] at hasking
        cases hasking
        exact ⟨next reply, Function.update_self _ _ _⟩
      · exact ⟨current, (Function.update_of_ne hsame _ _).trans hcurrent⟩
  | halt asker other r next cause store hasking hhalts =>
      by_cases hsame : pid = asker
      · subst hsame
        rw [hcurrent, Option.some.injEq] at hasking
        cases hasking
        exact ⟨.fault cause, Function.update_self _ _ _⟩
      · exact ⟨current, (Function.update_of_ne hsame _ _).trans hcurrent⟩
  | environment store hmoves => exact ⟨current, hcurrent⟩

/-- A process that is there was started. -/
theorem start_mem_of_process {store : σ}
    {final : Configuration κ Request Response Fault Result σ}
    {labels : List (Label κ Request Response Fault)}
    (hrun : Run system.Step (.idle store) labels final) {pid : ℕ} {call : κ}
    {program : Program Request Response Fault (Result call)}
    (hprocess : final.process pid = some ⟨call, program⟩) : Label.start pid call ∈ labels := by
  have hall := Run.invariant
    (I := fun past (state : Configuration κ Request Response Fault Result σ) =>
      ∀ pid call program, state.process pid = some ⟨call, program⟩ → Label.start pid call ∈ past)
    (by intro pid call program hprocess; simp [Configuration.idle] at hprocess) ?_ hrun
  · exact hall pid call program hprocess
  · intro past before label after hpast hstep pid call program hprocess
    rw [List.mem_append]
    cases hstep with
    | start starter started hfree hadmits =>
        by_cases hsame : pid = starter
        · subst hsame
          simp only [Function.update_self, Option.some.injEq, Sigma.mk.injEq] at hprocess
          right
          rw [hprocess.1]
          exact List.mem_singleton_self _
        · simp only [Function.update_of_ne hsame] at hprocess
          exact .inl (hpast pid call program hprocess)
    | ask asker asking r next reply store hasks hanswers =>
        by_cases hsame : pid = asker
        · subst hsame
          simp only [Function.update_self, Option.some.injEq, Sigma.mk.injEq] at hprocess
          left
          rw [← hprocess.1]
          exact hpast pid asking _ hasks
        · simp only [Function.update_of_ne hsame] at hprocess
          exact .inl (hpast pid call program hprocess)
    | halt halter halting r next cause store hasks hhalts =>
        by_cases hsame : pid = halter
        · subst hsame
          simp only [Function.update_self, Option.some.injEq, Sigma.mk.injEq] at hprocess
          left
          rw [← hprocess.1]
          exact hpast pid halting _ hasks
        · simp only [Function.update_of_ne hsame] at hprocess
          exact .inl (hpast pid call program hprocess)
    | environment store hmoves => exact .inl (hpast pid call program hprocess)

/-- All answers to a process come after its start. -/
theorem ask_not_mem_of_start {store : σ}
    {middle final : Configuration κ Request Response Fault Result σ}
    {past rest : List (Label κ Request Response Fault)}
    (hpast : Run system.Step (.idle store) past middle)
    (hrest : Run system.Step middle rest final) {pid : ℕ} {call : κ}
    (hstart : Label.start pid call ∈ rest) {r : Request} {reply : Response r} :
    Label.ask pid r reply ∉ past := by
  intro hask
  obtain ⟨_, second, before, asking, next, after, _, _, _, _, hsecond⟩ := exists_of_ask hpast hask
  have hmiddle : middle.process pid ≠ none := process_stays hsecond (by simp)
  obtain ⟨first, later, hsplit⟩ := List.append_of_mem hstart
  rw [hsplit] at hrest
  obtain ⟨starting, hfirst, _, hstep, _⟩ := run_append.mp hrest
  cases hstep with
  | start starter started hfree hadmits => exact process_stays hfirst hmiddle hfree

end System

/-! ## Schedules -/

/-- One entry of a schedule: a process starts, or has its next request
served. -/
inductive Move (κ : Type) where
  | start (pid : ℕ) (call : κ)
  | ask (pid : ℕ)

/-- Carry out one move, with requests served by a function. -/
def Configuration.move
    (body : (call : κ) → Program Request Response Fault (Result call))
    (admission : ℕ → σ → κ → Bool) (serve : ℕ → σ → (r : Request) → Option (Response r × σ))
    (config : Configuration κ Request Response Fault Result σ) :
    Move κ → Option (Configuration κ Request Response Fault Result σ)
  | .start pid call =>
      match config.process pid with
      | none =>
          if admission pid config.store call then
            some ⟨config.store, Function.update config.process pid (some ⟨call, body call⟩)⟩
          else none
      | some _ => none
  | .ask pid =>
      match config.process pid with
      | some ⟨call, .request r next⟩ =>
          (serve pid config.store r).map fun served =>
            ⟨served.2, Function.update config.process pid (some ⟨call, next served.1⟩)⟩
      | _ => none

def Configuration.moves
    (body : (call : κ) → Program Request Response Fault (Result call))
    (admission : ℕ → σ → κ → Bool) (serve : ℕ → σ → (r : Request) → Option (Response r × σ)) :
    Configuration κ Request Response Fault Result σ → List (Move κ) →
      Option (Configuration κ Request Response Fault Result σ)
  | config, [] => some config
  | config, move :: rest => (config.move body admission serve move).bind fun next =>
      next.moves body admission serve rest

/-- A schedule whose calls start and whose requests are served as the system
allows is a run of the system. -/
theorem System.run_of_moves {system : System κ Request Response Fault Result σ}
    {admission : ℕ → σ → κ → Bool} {serve : ℕ → σ → (r : Request) → Option (Response r × σ)}
    (hadmission : ∀ pid store call, admission pid store call = true → system.admits pid store call)
    (hserve : ∀ pid store r reply after,
      serve pid store r = some (reply, after) → system.answers pid store r reply after)
    {config final : Configuration κ Request Response Fault Result σ}
    {schedule : List (Move κ)}
    (hmoves : config.moves system.body admission serve schedule = some final) :
    ∃ labels, Run system.Step config labels final := by
  induction schedule generalizing config with
  | nil => exact ⟨[], Option.some.inj hmoves⟩
  | cons move rest ih =>
      obtain ⟨next, hmove, hrest⟩ := Option.bind_eq_some_iff.mp hmoves
      obtain ⟨labels, hrun⟩ := ih hrest
      cases move with
      | start pid call =>
          simp only [Configuration.move] at hmove
          split at hmove
          next hfree =>
            split at hmove
            next hadmitted =>
              rw [← Option.some.inj hmove] at hrun
              exact ⟨.start pid call :: labels,
                run_cons.mpr ⟨_, .start pid call hfree (hadmission _ _ _ hadmitted), hrun⟩⟩
            next => cases hmove
          next => cases hmove
      | ask pid =>
          simp only [Configuration.move] at hmove
          split at hmove
          next call r following hprocess =>
            obtain ⟨⟨reply, after⟩, hserved, hnext⟩ := Option.map_eq_some_iff.mp hmove
            rw [← hnext] at hrun
            exact ⟨.ask pid r reply :: labels, run_cons.mpr ⟨_,
              .ask pid call r following reply after hprocess (hserve _ _ _ _ _ hserved), hrun⟩⟩
          next => cases hmove

/-! ## Contracts -/

/-- What one process may rely on, what it guarantees, and which requests it may
issue in which store.  Between two of its requests the store moves along
`rely`; every answer to it moves the store along `guarantee`. -/
structure Contract (Request : Type) (Response : Request → Type) (σ : Type) where
  invariant : σ → Prop
  answers : σ → (r : Request) → Response r → σ → Prop
  rely : σ → σ → Prop
  guarantee : σ → σ → Prop
  guard : σ → Request → Prop
  rely_refl : ∀ store, rely store store
  rely_trans : ∀ first second third, rely first second → rely second third → rely first third

namespace Program

variable {α β : Type} {contract : Contract Request Response σ}
  {program : Program Request Response Fault α} {store : σ} {post post' : α → σ → Prop}

/-- From this store on, the program respects the contract, and a value it
returns satisfies `post` for as long as the others respect it too. -/
def Obeys (contract : Contract Request Response σ) :
    Program Request Response Fault α → (α → σ → Prop) → σ → Prop
  | .done value, post, store =>
      ∀ later, contract.rely store later → contract.invariant later → post value later
  | .fault _, _, _ => True
  | .request r next, post, store =>
      ∀ later, contract.rely store later → contract.invariant later →
        contract.guard later r ∧
          ∀ reply after, contract.answers later r reply after →
            contract.invariant after ∧ contract.guarantee later after ∧
              (next reply).Obeys contract post after

/-- Obedience survives what the other processes do. -/
theorem Obeys.later {later : σ} (hobeys : program.Obeys contract post store)
    (hrely : contract.rely store later) : program.Obeys contract post later := by
  cases program with
  | done value =>
      intro further hfurther
      exact hobeys further (contract.rely_trans _ _ _ hrely hfurther)
  | fault cause => trivial
  | request r next =>
      intro further hfurther
      exact hobeys further (contract.rely_trans _ _ _ hrely hfurther)

theorem Obeys.mono (hobeys : program.Obeys contract post store)
    (hpost : ∀ value later, post value later → post' value later) :
    program.Obeys contract post' store := by
  induction program generalizing store with
  | done value =>
      intro later hrely hinv
      exact hpost value later (hobeys later hrely hinv)
  | fault cause => trivial
  | request r next ih =>
      intro later hrely hinv
      obtain ⟨hguard, hanswer⟩ := hobeys later hrely hinv
      refine ⟨hguard, ?_⟩
      intro reply after hreply
      obtain ⟨hafter, hguarantee, hnext⟩ := hanswer reply after hreply
      exact ⟨hafter, hguarantee, ih reply hnext⟩

/-- Sequential composition: the second program starts from what the first one
established. -/
theorem Obeys.bind {f : α → Program Request Response Fault β} {final : β → σ → Prop}
    (hinv : contract.invariant store) (hobeys : program.Obeys contract post store)
    (hnext : ∀ value later, contract.invariant later → post value later →
      (f value).Obeys contract final later) :
    (program >>= f).Obeys contract final store := by
  induction program generalizing store with
  | done value => exact hnext value store hinv (hobeys store (contract.rely_refl store) hinv)
  | fault cause => trivial
  | request r next ih =>
      intro later hrely hlater
      obtain ⟨hguard, hanswer⟩ := hobeys later hrely hlater
      refine ⟨hguard, ?_⟩
      intro reply after hreply
      obtain ⟨hafter, hguarantee, hrest⟩ := hanswer reply after hreply
      exact ⟨hafter, hguarantee, ih reply hafter hrest⟩

/-- A program obeys a contract once it obeys an abstract one with the same
invariant, and every request the abstract guard allows is carried out by an
obedient program that establishes the abstract answer. -/
theorem Obeys.expand {Call : Type} {Answer : Call → Type}
    {abstract : Contract Call Answer σ} {program : Program Call Answer Fault α}
    {handler : (call : Call) → Program Request Response Fault (Answer call)}
    (hsame : abstract.invariant = contract.invariant)
    (hhandler : ∀ call store, contract.invariant store → abstract.guard store call →
      (handler call).Obeys contract (abstract.answers store call) store)
    (hinv : contract.invariant store) (hobeys : program.Obeys abstract post store)
    (hrely : ∀ before later, contract.rely before later → abstract.rely before later) :
    (program.expand handler).Obeys contract post store := by
  induction program generalizing store with
  | done value =>
      intro later hlater hafter
      exact hobeys later (hrely _ _ hlater) (hsame ▸ hafter)
  | fault cause => trivial
  | request call next ih =>
      obtain ⟨hguard, hanswer⟩ := hobeys store (abstract.rely_refl store) (hsame ▸ hinv)
      refine (hhandler call store hinv hguard).bind hinv ?_
      intro value later hafter hreply
      exact ih value hafter (hanswer value later hreply).2.2

/-- If a process may rely on its own steps as well, it knows how the store has
moved since it started. -/
theorem Obeys.since {start : σ}
    (hown : ∀ before after, contract.guarantee before after → contract.rely before after)
    (hobeys : program.Obeys contract post store) (hstart : contract.rely start store) :
    program.Obeys contract (fun value later => contract.rely start later ∧ post value later)
      store := by
  induction program generalizing store with
  | done value =>
      intro later hrely hinv
      exact ⟨contract.rely_trans _ _ _ hstart hrely, hobeys later hrely hinv⟩
  | fault cause => trivial
  | request r next ih =>
      intro later hrely hinv
      obtain ⟨hguard, hanswer⟩ := hobeys later hrely hinv
      refine ⟨hguard, ?_⟩
      intro reply after hreply
      obtain ⟨hafter, hguarantee, hnext⟩ := hanswer reply after hreply
      exact ⟨hafter, hguarantee, ih reply hnext
        (contract.rely_trans _ _ _ (contract.rely_trans _ _ _ hstart hrely)
          (hown _ _ hguarantee))⟩

/-- A program whose requests are always allowed obeys, and keeps what no answer
disturbs. -/
theorem Obeys.of_issues_keeping {P : Request → Prop} {Q : σ → Prop}
    (hguard : ∀ r store, P r → contract.guard store r)
    (hserved : ∀ store r reply after, contract.invariant store → contract.guard store r →
      contract.answers store r reply after →
        contract.invariant after ∧ contract.guarantee store after)
    (hrely : ∀ before later, Q before → contract.rely before later → Q later)
    (hown : ∀ before after, Q before → contract.guarantee before after → Q after)
    (hissues : program.Issues P) (hstore : Q store) :
    program.Obeys contract (fun _ later => Q later) store := by
  induction program generalizing store with
  | done value => exact fun later hlater _ => hrely store later hstore hlater
  | fault cause => trivial
  | request r next ih =>
      intro later hlater hinv
      refine ⟨hguard r later hissues.1, ?_⟩
      intro reply after hreply
      obtain ⟨hafter, hguarantee⟩ :=
        hserved later r reply after hinv (hguard r later hissues.1) hreply
      have hkept := hown later after (hrely store later hstore hlater) hguarantee
      exact ⟨hafter, hguarantee, ih reply (hissues.2 reply) hkept⟩

/-- A program whose requests are always allowed obeys. -/
theorem Obeys.of_issues {P : Request → Prop} (hguard : ∀ r store, P r → contract.guard store r)
    (hserved : ∀ store r reply after, contract.invariant store → contract.guard store r →
      contract.answers store r reply after →
        contract.invariant after ∧ contract.guarantee store after)
    (hissues : program.Issues P) : program.Obeys contract (fun _ _ => True) store :=
  Obeys.of_issues_keeping hguard hserved (fun _ _ _ _ => trivial) (fun _ _ _ _ => trivial) hissues
    trivial

/-- An obedient program that is executed alone leaves a store that satisfies the
invariant. -/
theorem Obeys.exec {answer : σ → (r : Request) → Except Fault (σ × Response r)}
    (hanswer : ∀ store r after reply, answer store r = .ok (after, reply) →
      contract.answers store r reply after)
    (hinv : contract.invariant store) (hobeys : program.Obeys contract post store) :
    contract.invariant (program.exec answer store).1 := by
  induction program generalizing store with
  | done value => exact hinv
  | fault cause => exact hinv
  | request r next ih =>
      rw [exec_request]
      cases hserved : answer store r with
      | error cause => exact hinv
      | ok served =>
          obtain ⟨_, hnext⟩ := hobeys store (contract.rely_refl store) hinv
          obtain ⟨hafter, _, hrest⟩ := hnext served.2 served.1 (hanswer store r _ _ hserved)
          exact ih served.2 hafter hrest

/-- Renamed requests are judged by their new names. -/
theorem Obeys.relay {Request' : Type} {Response' : Request' → Type}
    {target : Contract Request' Response' σ} {rename : Request → Request'}
    {back : ∀ r, Response' (rename r) → Response r}
    (hinvariant : target.invariant = contract.invariant) (hrely : target.rely = contract.rely)
    (hguarantee : target.guarantee = contract.guarantee)
    (hguard : ∀ store r, contract.guard store r → target.guard store (rename r))
    (hanswers : ∀ store r reply after, target.answers store (rename r) reply after →
      contract.answers store r (back r reply) after)
    (hobeys : program.Obeys contract post store) :
    (program.relay rename back).Obeys target post store := by
  induction program generalizing store with
  | done value =>
      intro later hlater hinv
      exact hobeys later (hrely ▸ hlater) (hinvariant ▸ hinv)
  | fault cause => trivial
  | request r next ih =>
      intro later hlater hinv
      obtain ⟨hallowed, hnext⟩ := hobeys later (hrely ▸ hlater) (hinvariant ▸ hinv)
      refine ⟨hguard later r hallowed, ?_⟩
      intro reply after hreply
      obtain ⟨hafter, hmoved, hrest⟩ := hnext (back r reply) after (hanswers later r reply after hreply)
      exact ⟨hinvariant ▸ hafter, hguarantee ▸ hmoved, ih (back r reply) hrest⟩

/-- A caught fault establishes nothing. -/
theorem Obeys.attempt (hobeys : program.Obeys contract post store) :
    program.attempt.Obeys contract
      (fun outcome later => ∀ value, outcome = .ok value → post value later) store := by
  induction program generalizing store with
  | done value =>
      rintro later hrely hinv _ ⟨rfl⟩
      exact hobeys later hrely hinv
  | fault cause =>
      rintro later hrely hinv value hvalue
      cases hvalue
  | request r next ih =>
      intro later hrely hinv
      obtain ⟨hguard, hanswer⟩ := hobeys later hrely hinv
      refine ⟨hguard, ?_⟩
      intro reply after hreply
      obtain ⟨hafter, hguarantee, hrest⟩ := hanswer reply after hreply
      exact ⟨hafter, hguarantee, ih reply hrest⟩

end Program

/-- The contracts of all processes of a system over one invariant: what one
process guarantees, every other one relies on. -/
structure Discipline (system : System κ Request Response Fault Result σ) where
  invariant : σ → Prop
  rely : ℕ → σ → σ → Prop
  guarantee : ℕ → σ → σ → Prop
  guard : ℕ → σ → Request → Prop
  post : (call : κ) → Result call → σ → Prop
  rely_refl : ∀ pid store, rely pid store store
  rely_trans : ∀ pid first second third,
    rely pid first second → rely pid second third → rely pid first third
  compatible : ∀ pid other before after, pid ≠ other →
    guarantee pid before after → rely other before after
  environment : ∀ before after, invariant before → system.environment before after →
    invariant after ∧ ∀ pid, rely pid before after
  halts : ∀ pid before after, invariant before → system.halts pid before after →
    invariant after ∧ ∀ other, pid ≠ other → rely other before after

namespace Discipline

variable {system : System κ Request Response Fault Result σ}

/-- The contract of one process. -/
def contract (discipline : Discipline system) (pid : ℕ) : Contract Request Response σ where
  invariant := discipline.invariant
  answers := system.answers pid
  rely := discipline.rely pid
  guarantee := discipline.guarantee pid
  guard := discipline.guard pid
  rely_refl := discipline.rely_refl pid
  rely_trans := discipline.rely_trans pid

variable (discipline : Discipline system)

/-- The invariant holds and every process is obedient. -/
def Respected (config : Configuration κ Request Response Fault Result σ) : Prop :=
  discipline.invariant config.store ∧
    ∀ pid call program, config.process pid = some ⟨call, program⟩ →
      program.Obeys (discipline.contract pid) (discipline.post call) config.store

variable {discipline}

theorem Respected.step
    (hbodies : ∀ pid call store, discipline.invariant store → system.admits pid store call →
      (system.body call).Obeys (discipline.contract pid) (discipline.post call) store)
    {before after : Configuration κ Request Response Fault Result σ}
    {label : Label κ Request Response Fault}
    (hbefore : discipline.Respected before) (hstep : system.Step before label after) :
    discipline.Respected after := by
  obtain ⟨hinv, hobeys⟩ := hbefore
  cases hstep with
  | start pid call hfree hadmits =>
      refine ⟨hinv, ?_⟩
      intro other call' program hprocess
      by_cases hother : other = pid
      · subst hother
        simp only [Function.update_self] at hprocess
        cases hprocess
        exact hbodies other call before.store hinv hadmits
      · simp only [Function.update_of_ne hother] at hprocess
        exact hobeys other call' program hprocess
  | ask pid call r next reply store hprocess hanswers =>
      obtain ⟨_, hanswer⟩ :=
        hobeys pid call _ hprocess before.store (discipline.rely_refl pid _) hinv
      obtain ⟨hafter, hguarantee, hnext⟩ := hanswer reply store hanswers
      refine ⟨hafter, ?_⟩
      intro other call' program hother
      by_cases hpid : other = pid
      · subst hpid
        simp only [Function.update_self] at hother
        cases hother
        exact hnext
      · simp only [Function.update_of_ne hpid] at hother
        exact (hobeys other call' program hother).later
          (discipline.compatible pid other _ _ (fun h => hpid h.symm) hguarantee)
  | halt pid call r next cause store hprocess hhalts =>
      obtain ⟨hafter, hrely⟩ := discipline.halts pid _ _ hinv hhalts
      refine ⟨hafter, ?_⟩
      intro other call' program hother
      by_cases hpid : other = pid
      · subst hpid
        simp only [Function.update_self] at hother
        cases hother
        trivial
      · simp only [Function.update_of_ne hpid] at hother
        exact (hobeys other call' program hother).later (hrely other fun h => hpid h.symm)
  | environment store hmoves =>
      obtain ⟨hafter, hrely⟩ := discipline.environment _ _ hinv hmoves
      refine ⟨hafter, ?_⟩
      intro other call' program hother
      exact (hobeys other call' program hother).later (hrely other)

/-- Adequacy: if every body obeys its contract, the invariant holds throughout
every run and every process stays obedient. -/
theorem respected_of_run
    (hbodies : ∀ pid call store, discipline.invariant store → system.admits pid store call →
      (system.body call).Obeys (discipline.contract pid) (discipline.post call) store)
    {store : σ} (hinitial : discipline.invariant store)
    {labels : List (Label κ Request Response Fault)}
    {config : Configuration κ Request Response Fault Result σ}
    (hrun : Run system.Step (.idle store) labels config) :
    discipline.Respected config :=
  Run.preserves discipline.Respected
    ⟨hinitial, by intro pid call program hprocess; simp [Configuration.idle] at hprocess⟩
    (fun _ _ _ hbefore hstep => hbefore.step hbodies hstep) hrun

/-- A request issued from a respected configuration meets its guard. -/
theorem Respected.guard {config : Configuration κ Request Response Fault Result σ}
    (hrespected : discipline.Respected config) {pid : ℕ} {call : κ} {r : Request}
    {next : Response r → Program Request Response Fault (Result call)}
    (hprocess : config.process pid = some ⟨call, .request r next⟩) :
    discipline.guard pid config.store r :=
  (hrespected.2 pid call _ hprocess config.store (discipline.rely_refl pid _)
    hrespected.1).1

/-- What a returned value of a respected configuration satisfies. -/
theorem Respected.post {config : Configuration κ Request Response Fault Result σ}
    (hrespected : discipline.Respected config) {pid : ℕ} {call : κ} {value : Result call}
    (hprocess : config.process pid = some ⟨call, .done value⟩) :
    discipline.post call value config.store :=
  hrespected.2 pid call _ hprocess config.store (discipline.rely_refl pid _) hrespected.1

end Discipline

end Interaction
