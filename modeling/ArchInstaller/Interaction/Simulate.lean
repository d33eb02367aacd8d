import ArchInstaller.Interaction.Machine

/-! # Simulated runs

Answering every request by a function computes one run of a program. Where the answers are ones
that a machine allows, this is a run of the program on the machine. -/

namespace Interaction

variable {ι ρ μ ε α σ : Type}

structure Simulation (ι ρ ε α σ : Type) where
  exchanges : List (ι × ρ)
  outcome : Outcome ε α
  final : σ

/-- Run a program from state `s`, and cut it off before its request number `limit + 1`. -/
def simulate (respond : σ → ι → ρ × σ) :
    Program ι ρ μ ε α → Nat → σ → Simulation ι ρ ε α σ
  | .ret value, _, s => ⟨[], .returned value, s⟩
  | .raise error, _, s => ⟨[], .raised error, s⟩
  | .log _ rest, limit, s => simulate respond rest limit s
  | .request _ _, 0, s => ⟨[], .stopped, s⟩
  | .request invocation rest, limit + 1, s =>
    let (answer, mid) := respond s invocation
    let simulation := simulate respond (rest answer) limit mid
    ⟨(invocation, answer) :: simulation.exchanges, simulation.outcome, simulation.final⟩

theorem simulate_runs (respond : σ → ι → ρ × σ) (p : Program ι ρ μ ε α) (limit : Nat) (s : σ) :
    Runs p (simulate respond p limit s).exchanges (simulate respond p limit s).outcome := by
  induction p generalizing limit s with
  | ret value => exact .ret
  | raise error => exact .raise
  | log message rest ih => exact .log (ih limit s)
  | request invocation rest ih =>
    cases limit with
    | zero => exact .stopped
    | succ limit => exact .request (ih _ limit _)

theorem simulate_replays {M : Machine ι ρ σ} {respond : σ → ι → ρ × σ}
    (h : ∀ s i, M s i (respond s i).1 (respond s i).2) (p : Program ι ρ μ ε α) (limit : Nat)
    (s : σ) :
    Replays M s (simulate respond p limit s).exchanges (simulate respond p limit s).final := by
  induction p generalizing limit s with
  | ret value => exact .nil
  | raise error => exact .nil
  | log message rest ih => exact ih limit s
  | request invocation rest ih =>
    cases limit with
    | zero => exact .nil
    | succ limit => exact .cons (h s invocation) (ih _ limit _)

end Interaction
