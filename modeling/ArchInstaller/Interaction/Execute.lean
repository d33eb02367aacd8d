import ArchInstaller.Interaction.Machine

/-! # Programs with given replies

Where each request has one reply and one next state, a program can be executed; what it then does
is a run of it on every machine that allows these replies. -/

namespace Interaction

variable {ι ρ μ ε α σ : Type}

def Program.execute (reply : σ → ι → ρ × σ) :
    Program ι ρ μ ε α → σ → List (ι × ρ) × Outcome ε α × σ
  | .ret value, s => ([], .returned value, s)
  | .raise error, s => ([], .raised error, s)
  | .log _ rest, s => rest.execute reply s
  | .request invocation rest, s =>
    let (answer, s) := reply s invocation
    let (exchanges, ending) := (rest answer).execute reply s
    ((invocation, answer) :: exchanges, ending)

variable {reply : σ → ι → ρ × σ} {p : Program ι ρ μ ε α} {s : σ}

theorem runs_execute : Runs p (p.execute reply s).1 (p.execute reply s).2.1 := by
  induction p generalizing s with
  | ret => exact .ret
  | raise => exact .raise
  | log message rest ih => exact .log ih
  | request invocation rest ih => exact .request (ih (reply s invocation).1)

/-- Each answer is the one that is given in some state. -/
theorem mem_execute {x : ι × ρ} (h : x ∈ (p.execute reply s).1) : ∃ s, x.2 = (reply s x.1).1 := by
  induction p generalizing s with
  | ret | raise => simp [Program.execute] at h
  | log message rest ih => exact ih h
  | request invocation rest ih =>
    rcases List.mem_cons.mp h with rfl | h
    · exact ⟨s, rfl⟩
    · exact ih _ h

/-- The replies are followed by a machine that allows them in the states that come up. -/
theorem replays_execute {M : Machine ι ρ σ} {I : σ → Prop}
    (hreply : ∀ s i, I s → M s i (reply s i).1 (reply s i).2 ∧ I (reply s i).2) (hs : I s) :
    Replays M s (p.execute reply s).1 (p.execute reply s).2.2 ∧ I (p.execute reply s).2.2 := by
  induction p generalizing s with
  | ret | raise => exact ⟨.nil, hs⟩
  | log message rest ih => exact ih hs
  | request invocation rest ih =>
    obtain ⟨hstep, hnext⟩ := hreply s invocation hs
    obtain ⟨hrest, hend⟩ := ih (reply s invocation).1 hnext
    exact ⟨.cons hstep hrest, hend⟩

end Interaction
