import Mathlib.Logic.Basic

/-! # Programs that act through requests

A `Program` is what a caller of outside services can do: return a value, raise an error, log a
message, or issue a request and go on with its answer. Nothing is said here about what a
request does: the answers are chosen by whoever runs the program, so `Runs` relates a program
to every exchange of requests and answers it can have, and to how such a run ends. A run may
also be cut off before any request (`Outcome.stopped`), which is what a crash looks like from
outside; `Runs` is therefore closed under prefixes. -/

namespace Interaction

/-- A program over requests `ι`, answers `ρ`, log messages `μ` and errors `ε`. -/
inductive Program (ι ρ μ ε α : Type) where
  | ret (value : α)
  | raise (error : ε)
  | log (message : μ) (rest : Program ι ρ μ ε α)
  | request (invocation : ι) (rest : ρ → Program ι ρ μ ε α)

/-- How a run ends: `stopped` is a run that was cut off. -/
inductive Outcome (ε α : Type) where
  | returned (value : α)
  | raised (error : ε)
  | stopped
  deriving DecidableEq

variable {ι ρ μ ε α β : Type}

namespace Program

protected def bind : Program ι ρ μ ε α → (α → Program ι ρ μ ε β) → Program ι ρ μ ε β
  | .ret value, next => next value
  | .raise error, _ => .raise error
  | .log message rest, next => .log message (rest.bind next)
  | .request invocation rest, next => .request invocation fun answer => (rest answer).bind next

instance : Monad (Program ι ρ μ ε) where
  pure := .ret
  bind := .bind

theorem pure_def (value : α) : (pure value : Program ι ρ μ ε α) = .ret value := rfl

theorem bind_def (p : Program ι ρ μ ε α) (next : α → Program ι ρ μ ε β) :
    p >>= next = p.bind next := rfl

@[simp] theorem ret_bind (value : α) (next : α → Program ι ρ μ ε β) :
    Program.ret value >>= next = next value := rfl

@[simp] theorem raise_bind (error : ε) (next : α → Program ι ρ μ ε β) :
    Program.raise error >>= next = .raise error := rfl

@[simp] theorem log_bind (message : μ) (rest : Program ι ρ μ ε α)
    (next : α → Program ι ρ μ ε β) :
    Program.log message rest >>= next = .log message (rest >>= next) := rfl

@[simp] theorem request_bind (invocation : ι) (rest : ρ → Program ι ρ μ ε α)
    (next : α → Program ι ρ μ ε β) :
    Program.request invocation rest >>= next =
      .request invocation fun answer => rest answer >>= next := rfl

private theorem bind_ret (p : Program ι ρ μ ε α) : p.bind .ret = p := by
  induction p with
  | ret | raise => rfl
  | log message rest ih => simp only [Program.bind, ih]
  | request invocation rest ih => simp only [Program.bind, ih]

private theorem bind_assoc {γ : Type} (p : Program ι ρ μ ε α) (f : α → Program ι ρ μ ε β)
    (g : β → Program ι ρ μ ε γ) : (p.bind f).bind g = p.bind fun value => (f value).bind g := by
  induction p with
  | ret | raise => rfl
  | log message rest ih => simp only [Program.bind, ih]
  | request invocation rest ih => simp only [Program.bind, ih]

instance : LawfulMonad (Program ι ρ μ ε) :=
  LawfulMonad.mk' _ bind_ret (fun _ _ => rfl) bind_assoc

/-- Turn the way `p` ends, by a value or an error, into a value. -/
def attempt : Program ι ρ μ ε α → Program ι ρ μ ε (Except ε α)
  | .ret value => .ret (.ok value)
  | .raise error => .ret (.error error)
  | .log message rest => .log message rest.attempt
  | .request invocation rest => .request invocation fun answer => (rest answer).attempt

/-- End as a value or an error already decided. -/
def ofExcept : Except ε α → Program ι ρ μ ε α
  | .ok value => .ret value
  | .error error => .raise error

/-- Run `cleanup` after `p`, however `p` ends; an error of `cleanup` replaces that of `p`. -/
def tryFinally (p : Program ι ρ μ ε α) (cleanup : Program ι ρ μ ε Unit) :
    Program ι ρ μ ε α := do
  let ending ← p.attempt
  cleanup
  ofExcept ending

/-- Do `p` only if the condition holds. -/
def onlyIf (condition : Bool) (p : Program ι ρ μ ε Unit) : Program ι ρ μ ε Unit :=
  if condition then p else pure ()

/-- Do `body` for each element, in order. -/
def forEach : List β → (β → Program ι ρ μ ε Unit) → Program ι ρ μ ε Unit
  | [], _ => pure ()
  | x :: xs, body => do
    body x
    forEach xs body

/-- The values of `body` for each element, in order. -/
def mapEach : List β → (β → Program ι ρ μ ε α) → Program ι ρ μ ε (List α)
  | [], _ => pure []
  | x :: xs, body => do
    let value ← body x
    let values ← mapEach xs body
    return value :: values

end Program

end Interaction
