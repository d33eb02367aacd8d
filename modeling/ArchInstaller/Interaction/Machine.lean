import ArchInstaller.Interaction.Run

/-! # Machines that answer requests

A machine says which answers a request may get in a state and which states may follow. A list of
exchanges that a program can have (`Runs`) and that a machine allows (`Replays`) is a run of the
program on the machine. -/

namespace Interaction

variable {ι ρ μ ε α β σ : Type}

/-- `M s i r s'`: in state `s` the request `i` may be answered by `r`, leading to `s'`. -/
abbrev Machine (ι ρ σ : Type) := σ → ι → ρ → σ → Prop

inductive Replays (M : Machine ι ρ σ) : σ → List (ι × ρ) → σ → Prop
  | nil : Replays M s [] s
  | cons : M s invocation answer mid → Replays M mid exchanges s' →
    Replays M s ((invocation, answer) :: exchanges) s'

section Replays

variable {M : Machine ι ρ σ} {s s' : σ}

@[simp] theorem replays_nil_iff : Replays M s [] s' ↔ s' = s := by
  constructor
  · rintro ⟨⟩
    rfl
  · rintro rfl
    exact .nil

@[simp] theorem replays_cons_iff {x : ι × ρ} {exchanges : List (ι × ρ)} :
    Replays M s (x :: exchanges) s' ↔ ∃ mid, M s x.1 x.2 mid ∧ Replays M mid exchanges s' := by
  constructor
  · rintro ⟨⟩
    exact ⟨_, ‹_›, ‹_›⟩
  · rintro ⟨mid, hstep, hrest⟩
    exact .cons hstep hrest

@[simp] theorem replays_append_iff {first second : List (ι × ρ)} :
    Replays M s (first ++ second) s' ↔
      ∃ mid, Replays M s first mid ∧ Replays M mid second s' := by
  induction first generalizing s with
  | nil => simp
  | cons x first ih => simp only [List.cons_append, replays_cons_iff, ih]; grind

/-- What every step of the exchanges keeps, the replay keeps. -/
theorem Replays.preserves {P : σ → Prop} {exchanges : List (ι × ρ)}
    (h : Replays M s exchanges s')
    (hstep : ∀ x ∈ exchanges, ∀ s s', P s → M s x.1 x.2 s' → P s') (hs : P s) : P s' := by
  induction h with
  | nil => exact hs
  | cons hfirst _ ih =>
    simp only [List.mem_cons, forall_eq_or_imp] at hstep
    exact ih hstep.2 (hstep.1 _ _ hs hfirst)

theorem Replays.mono {N : Machine ι ρ σ} {exchanges : List (ι × ρ)} (h : Replays M s exchanges s')
    (himp : ∀ s i r s', M s i r s' → N s i r s') : Replays N s exchanges s' := by
  induction h with
  | nil => exact .nil
  | cons hstep _ ih => exact .cons (himp _ _ _ _ hstep) ih

/-- What every step of the machine has, the exchanges have. -/
theorem Replays.forall {P : ι × ρ → Prop} {exchanges : List (ι × ρ)} (h : Replays M s exchanges s')
    (hstep : ∀ s i r s', M s i r s' → P (i, r)) : ∀ x ∈ exchanges, P x := by
  induction h with
  | nil => simp
  | cons hfirst _ ih => exact List.forall_mem_cons.mpr ⟨hstep _ _ _ _ hfirst, ih⟩

/-- A machine whose states are images of the states of another. -/
theorem Replays.map {τ : Type} {f : τ → σ} {t t' : τ} {exchanges : List (ι × ρ)}
    (h : Replays (fun t i r t' => M (f t) i r (f t')) t exchanges t') :
    Replays M (f t) exchanges (f t') := by
  induction h with
  | nil => exact .nil
  | cons hstep _ ih => exact .cons hstep ih

end Replays

end Interaction
