import Mathlib.Tactic

/-!
# Programs that talk to a store by requests

A program is a tree: it returns a value, fails with a fault, or issues one
request and continues with the answer.  The requests are the atomic steps of
whatever serves them, so one program text can be executed alone against a
store, replayed against recorded answers, or interleaved with others.
-/

namespace Interaction

/-- A program over the requests `Request`, where a request `r` is answered by a
`Response r`, faults are values of `Fault`, and the result is an `α`. -/
inductive Program (Request : Type) (Response : Request → Type) (Fault α : Type) where
  | done (value : α)
  | fault (cause : Fault)
  | request (r : Request) (next : Response r → Program Request Response Fault α)

variable {Request : Type} {Response : Request → Type} {Fault α β γ : Type}

namespace Program

def bind : Program Request Response Fault α →
    (α → Program Request Response Fault β) → Program Request Response Fault β
  | .done value, f => f value
  | .fault cause, _ => .fault cause
  | .request r next, f => .request r fun answer => (next answer).bind f

instance : Monad (Program Request Response Fault) where
  pure := .done
  bind := bind

/-- Issue one request and return its answer. -/
def ask (r : Request) : Program Request Response Fault (Response r) :=
  .request r .done

/-- Continue with a value, or fail with the fault that stands in its place. -/
def ofExcept : Except Fault α → Program Request Response Fault α
  | .ok value => .done value
  | .error cause => .fault cause

/-- Run a program and hand its fault, if any, to the caller as a value. -/
def attempt : Program Request Response Fault α →
    Program Request Response Fault (Except Fault α)
  | .done value => .done (.ok value)
  | .fault cause => .done (.error cause)
  | .request r next => .request r fun answer => (next answer).attempt

/-- Run a program inside one with other faults, and return how it went. -/
def outcome {Fault' : Type} : Program Request Response Fault α →
    Program Request Response Fault' (Except Fault α)
  | .done value => .done (.ok value)
  | .fault cause => .done (.error cause)
  | .request r next => .request r fun answer => (next answer).outcome

/-- Rename the requests of a program. -/
def relay {Request' : Type} {Response' : Request' → Type}
    (rename : Request → Request') (back : ∀ r, Response' (rename r) → Response r) :
    Program Request Response Fault α → Program Request' Response' Fault α
  | .done value => .done value
  | .fault cause => .fault cause
  | .request r next =>
      .request (rename r) fun answer => (next (back r answer)).relay rename back

/-- Carry out every request of a program by a program of its own. -/
def expand {Call : Type} {Answer : Call → Type}
    (handler : (call : Call) → Program Request Response Fault (Answer call)) :
    Program Call Answer Fault α → Program Request Response Fault α
  | .done value => .done value
  | .fault cause => .fault cause
  | .request call next =>
      (handler call).bind fun answer => (next answer).expand handler

@[simp] theorem pure_eq (value : α) :
    (pure value : Program Request Response Fault α) = .done value := rfl

@[simp] theorem done_bind (value : α)
    (f : α → Program Request Response Fault β) :
    (Program.done value >>= f) = f value := rfl

@[simp] theorem fault_bind (cause : Fault)
    (f : α → Program Request Response Fault β) :
    (Program.fault cause >>= f) = .fault cause := rfl

@[simp] theorem request_bind (r : Request)
    (next : Response r → Program Request Response Fault α)
    (f : α → Program Request Response Fault β) :
    (Program.request r next >>= f) = .request r fun answer => next answer >>= f := rfl

@[simp] theorem ask_bind (r : Request)
    (f : Response r → Program Request Response Fault β) :
    (ask r >>= f) = .request r f := rfl

theorem bind_done (program : Program Request Response Fault α) :
    (program >>= Program.done) = program := by
  induction program with
  | done value => rfl
  | fault cause => rfl
  | request r next ih =>
      rw [request_bind]
      congr
      funext answer
      exact ih answer

theorem bind_bind (program : Program Request Response Fault α)
    (f : α → Program Request Response Fault β)
    (g : β → Program Request Response Fault γ) :
    (program >>= f >>= g) = program >>= fun value => f value >>= g := by
  induction program with
  | done value => rfl
  | fault cause => rfl
  | request r next ih =>
      simp only [request_bind]
      congr
      funext answer
      exact ih answer

/-- Requests carried out as they are leave the program as it is. -/
theorem expand_ask (program : Program Request Response Fault α) :
    program.expand ask = program := by
  induction program with
  | done value => rfl
  | fault cause => rfl
  | request r next ih =>
      rw [expand]
      change Program.request r (fun answer => (next answer).expand ask) = _
      congr
      funext answer
      exact ih answer

/-- A sequence is carried out in sequence. -/
theorem expand_bind {Call : Type} {Answer : Call → Type}
    (handler : (call : Call) → Program Request Response Fault (Answer call))
    (program : Program Call Answer Fault α) (f : α → Program Call Answer Fault β) :
    (program >>= f).expand handler =
      (program.expand handler) >>= fun value => (f value).expand handler := by
  induction program with
  | done value => rfl
  | fault cause => rfl
  | request call next ih =>
      change (handler call >>= fun answer => (next answer >>= f).expand handler) =
        ((handler call >>= fun answer => (next answer).expand handler) >>= _)
      rw [bind_bind]
      congr
      funext answer
      exact ih answer

instance : LawfulMonad (Program Request Response Fault) :=
  LawfulMonad.mk' _ bind_done (fun _ _ => rfl) bind_bind

/-! ## Which requests a program issues -/

/-- Every request of the program satisfies the condition, whatever it is
answered. -/
def Issues (P : Request → Prop) : Program Request Response Fault α → Prop
  | .done _ => True
  | .fault _ => True
  | .request r next => P r ∧ ∀ answer, (next answer).Issues P

theorem Issues.bind {P : Request → Prop} {program : Program Request Response Fault α}
    {f : α → Program Request Response Fault β} (hprogram : program.Issues P)
    (hf : ∀ value, (f value).Issues P) : (program >>= f).Issues P := by
  induction program with
  | done value => exact hf value
  | fault cause => trivial
  | request r next ih => exact ⟨hprogram.1, fun answer => ih answer (hprogram.2 answer)⟩

theorem Issues.mono {P Q : Request → Prop} {program : Program Request Response Fault α}
    (himplies : ∀ r, P r → Q r) (hissues : program.Issues P) : program.Issues Q := by
  induction program with
  | done value => trivial
  | fault cause => trivial
  | request r next ih =>
      exact ⟨himplies r hissues.1, fun answer => ih answer (hissues.2 answer)⟩

theorem Issues.outcome {Fault' : Type} {P : Request → Prop}
    {program : Program Request Response Fault α} (hissues : program.Issues P) :
    (program.outcome : Program Request Response Fault' (Except Fault α)).Issues P := by
  induction program with
  | done value => trivial
  | fault cause => trivial
  | request r next ih => exact ⟨hissues.1, fun answer => ih answer (hissues.2 answer)⟩

theorem Issues.relay {Request' : Type} {Response' : Request' → Type} {P : Request → Prop}
    {Q : Request' → Prop} {rename : Request → Request'}
    {back : ∀ r, Response' (rename r) → Response r} {program : Program Request Response Fault α}
    (himplies : ∀ r, P r → Q (rename r)) (hissues : program.Issues P) :
    (program.relay rename back).Issues Q := by
  induction program with
  | done value => trivial
  | fault cause => trivial
  | request r next ih =>
      exact ⟨himplies r hissues.1, fun answer => ih (back r answer) (hissues.2 (back r answer))⟩

theorem Issues.expand {Call : Type} {Answer : Call → Type} {P : Request → Prop}
    {Q : Call → Prop}
    {handler : (call : Call) → Program Request Response Fault (Answer call)}
    {program : Program Call Answer Fault α} (hhandler : ∀ call, Q call → (handler call).Issues P)
    (hissues : program.Issues Q) : (program.expand handler).Issues P := by
  induction program with
  | done value => trivial
  | fault cause => trivial
  | request call next ih =>
      exact (hhandler call hissues.1).bind fun answer => ih answer (hissues.2 answer)

theorem issues_ofExcept {P : Request → Prop} (value : Except Fault α) :
    (ofExcept value : Program Request Response Fault α).Issues P := by
  cases value <;> trivial

/-! ## Execution of one program alone -/

section Execution

variable {σ : Type}

/-- Execute a program against a store that answers every request or faults.
The store is the one after the last answered request. -/
def exec (answer : σ → (r : Request) → Except Fault (σ × Response r)) :
    Program Request Response Fault α → σ → σ × Except Fault α
  | .done value, store => (store, .ok value)
  | .fault cause, store => (store, .error cause)
  | .request r next, store =>
      match answer store r with
      | .error cause => (store, .error cause)
      | .ok (after, reply) => (next reply).exec answer after

variable {answer : σ → (r : Request) → Except Fault (σ × Response r)}

@[simp] theorem exec_done (value : α) (store : σ) :
    exec answer (.done value) store = (store, .ok value) := rfl

@[simp] theorem exec_fault (cause : Fault) (store : σ) :
    exec answer (.fault cause : Program Request Response Fault α) store =
      (store, .error cause) := rfl

theorem exec_request (r : Request)
    (next : Response r → Program Request Response Fault α) (store : σ) :
    exec answer (.request r next) store =
      match answer store r with
      | .error cause => (store, .error cause)
      | .ok (after, reply) => exec answer (next reply) after := by
  rw [exec]

/-- Sequential composition runs the second program on the store the first one
left, unless the first one faulted. -/
theorem exec_bind (program : Program Request Response Fault α)
    (f : α → Program Request Response Fault β) (store : σ) :
    exec answer (program >>= f) store =
      match exec answer program store with
      | (after, .ok value) => exec answer (f value) after
      | (after, .error cause) => (after, .error cause) := by
  induction program generalizing store with
  | done value => rfl
  | fault cause => rfl
  | request r next ih =>
      rw [request_bind, exec_request, exec_request]
      cases answer store r with
      | error cause => rfl
      | ok pair => exact ih pair.2 pair.1

end Execution

end Program

end Interaction
