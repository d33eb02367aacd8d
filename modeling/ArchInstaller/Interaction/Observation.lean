import ArchInstaller.Interaction.Run

/-! # What an observer sees of a program

An observer sees the log messages and, of each request, its `view`. Where the answers depend on
what was seen so far, two programs that are alike up to the view cannot be told apart. -/

namespace Interaction

variable {ι κ ρ μ ε α β : Type}

inductive Event (κ μ : Type) where
  | logged (message : μ)
  | requested (seen : κ)
  deriving DecidableEq

/-- Run a program against an oracle that answers each request from what was seen up to it, and
return everything seen with the way the program ends. -/
def observe (view : ι → κ) (oracle : List (Event κ μ) → ρ) :
    Program ι ρ μ ε α → List (Event κ μ) → List (Event κ μ) × Except ε α
  | .ret value, seen => (seen, .ok value)
  | .raise error, seen => (seen, .error error)
  | .log message rest, seen => observe view oracle rest (seen ++ [.logged message])
  | .request invocation rest, seen =>
    let seen := seen ++ [.requested (view invocation)]
    observe view oracle (rest (oracle seen)) seen

/-- Programs that take the same course but for the requests, which have the same view. -/
inductive Alike (view : ι → κ) : Program ι ρ μ ε α → Program ι ρ μ ε α → Prop
  | ret : Alike view (.ret value) (.ret value)
  | raise : Alike view (.raise error) (.raise error)
  | log : Alike view p q → Alike view (.log message p) (.log message q)
  | request : view invocation = view invocation' → (∀ answer, Alike view (f answer) (g answer)) →
    Alike view (.request invocation f) (.request invocation' g)

section Alike

variable {view : ι → κ} {p q : Program ι ρ μ ε α} {f g : α → Program ι ρ μ ε β}

theorem Alike.observe_eq (h : Alike view p q) (oracle : List (Event κ μ) → ρ)
    (seen : List (Event κ μ)) : observe view oracle p seen = observe view oracle q seen := by
  induction h generalizing seen with
  | ret | raise => rfl
  | log _ ih => exact ih _
  | request hview _ ih =>
    simp only [observe, hview]
    exact ih _ _

theorem Alike.refl (p : Program ι ρ μ ε α) : Alike view p p := by
  induction p with
  | ret => exact .ret
  | raise => exact .raise
  | log _ _ ih => exact .log ih
  | request _ _ ih => exact .request rfl ih

theorem Alike.bind (hp : Alike view p q) (hf : ∀ value, Alike view (f value) (g value)) :
    Alike view (p >>= f) (q >>= g) := by
  induction hp with
  | ret => exact hf _
  | raise => exact .raise
  | log _ ih => exact .log ih
  | request hview _ ih => exact .request hview ih

/-- The second part of a sequence may differ. -/
theorem Alike.andThen (hf : ∀ value, Alike view (f value) (g value)) :
    Alike view (p >>= f) (p >>= g) :=
  (Alike.refl p).bind hf

theorem Alike.ite {condition : Prop} [Decidable condition] {p' q' : Program ι ρ μ ε α}
    (h : Alike view p q) (h' : Alike view p' q') :
    Alike view (if condition then p else p') (if condition then q else q') := by
  split
  · exact h
  · exact h'

theorem Alike.onlyIf {condition : Bool} {p q : Program ι ρ μ ε Unit} (h : Alike view p q) :
    Alike view (Program.onlyIf condition p) (Program.onlyIf condition q) :=
  .ite h (.refl _)

theorem Alike.attempt (h : Alike view p q) : Alike view p.attempt q.attempt := by
  induction h with
  | ret | raise => exact .ret
  | log _ ih => exact .log ih
  | request hview _ ih => exact .request hview ih

theorem Alike.tryFinally {cleanup cleanup' : Program ι ρ μ ε Unit} (h : Alike view p q)
    (hcleanup : Alike view cleanup cleanup') :
    Alike view (p.tryFinally cleanup) (q.tryFinally cleanup') :=
  h.attempt.bind fun _ => hcleanup.bind fun _ => .refl _

end Alike

/-! ## Observed runs -/

/-- The requests among what was seen. -/
def requestsSeen (seen : List (Event κ μ)) : List κ :=
  seen.filterMap fun
    | .logged _ => none
    | .requested request => some request

/-- How a run ends that is not cut off. -/
def Outcome.ofExcept : Except ε α → Outcome ε α
  | .ok value => .returned value
  | .error error => .raised error

/-- What is observed is a run of the program. -/
theorem observe_runs (view : ι → κ) (oracle : List (Event κ μ) → ρ) (p : Program ι ρ μ ε α)
    (seen : List (Event κ μ)) :
    ∃ exchanges, Runs p exchanges (.ofExcept (observe view oracle p seen).2) ∧
      requestsSeen (observe view oracle p seen).1 =
        requestsSeen seen ++ exchanges.map fun x => view x.1 := by
  induction p generalizing seen with
  | ret value => exact ⟨[], .ret, by simp [observe]⟩
  | raise error => exact ⟨[], .raise, by simp [observe]⟩
  | log message rest ih =>
    obtain ⟨exchanges, hrun, hseen⟩ := ih (seen ++ [.logged message])
    exact ⟨exchanges, .log hrun, by simpa [observe, requestsSeen] using hseen⟩
  | request invocation rest ih =>
    obtain ⟨exchanges, hrun, hseen⟩ := ih (oracle (seen ++ [.requested (view invocation)]))
      (seen ++ [.requested (view invocation)])
    exact ⟨_ :: exchanges, .request hrun, by simpa [observe, requestsSeen] using hseen⟩

end Interaction
