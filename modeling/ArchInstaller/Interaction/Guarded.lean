import ArchInstaller.Interaction.Issues
import Mathlib.Data.List.Induction

/-! # Requests judged by what came before them

`Guarded good p`: in every run of `p`, cut-off runs included, every request is `good` given the
exchanges that the run had before it. The second part of a sequence is guarded where what the
first part did is put before its own exchanges. -/

namespace Interaction

variable {ι ρ μ ε α β σ : Type}

def Guarded (good : List (ι × ρ) → ι → Prop) (p : Program ι ρ μ ε α) : Prop :=
  ∀ exchanges outcome, Runs p exchanges outcome →
    ∀ before x after, exchanges = before ++ x :: after → good before x.1

variable {good : List (ι × ρ) → ι → Prop} {p : Program ι ρ μ ε α} {f : α → Program ι ρ μ ε β}

/-- Requests that are good whatever was before. -/
theorem Guarded.of_issues (good' : ι → Prop) (h : Issues good' p)
    (himp : ∀ before i, good' i → good before i) : Guarded good p := by
  rintro exchanges outcome hrun before x after rfl
  exact himp before x.1 (h.of_runs hrun x (by simp))

theorem guarded_pure {value : α} : Guarded good (pure value : Program ι ρ μ ε α) :=
  .of_issues (fun _ => False) issues_pure fun _ _ h => h.elim

theorem Guarded.bind (hp : Guarded good p)
    (hf : ∀ first value, Runs p first (.returned value) →
      Guarded (fun before => good (first ++ before)) (f value)) : Guarded good (p >>= f) := by
  rintro exchanges outcome hrun before x after hsplit
  rcases runs_bind_iff.mp hrun with ⟨first, value, second, rfl, hfirst, hsecond⟩ |
    ⟨error, hraised, -⟩ | ⟨hstopped, -⟩
  · rcases List.append_eq_append_iff.mp hsplit with ⟨rest, rfl, hsecond'⟩ | ⟨rest, rfl, hrest⟩
    · exact hf first value hfirst second outcome hsecond rest x after hsecond'
    · cases rest with
      | nil =>
        rw [List.nil_append] at hrest
        have hhead := hf before value (by simpa using hfirst) second outcome hsecond [] x after
          hrest.symm
        simpa using hhead
      | cons y rest =>
        obtain ⟨rfl, rfl⟩ := List.cons.inj hrest
        exact hp _ _ hfirst before x rest rfl
  · exact hp _ _ hraised before x after hsplit
  · exact hp _ _ hstopped before x after hsplit

theorem Guarded.onlyIf {condition : Bool} {p : Program ι ρ μ ε Unit}
    (h : condition = true → Guarded good p) : Guarded good (Program.onlyIf condition p) := by
  cases condition with
  | false => exact guarded_pure
  | true => exact h rfl

section Later

variable (hmono : ∀ earlier before i, good before i → good (earlier ++ before) i)
include hmono

/-- What comes later is judged like the whole, where a request stays good. -/
theorem Guarded.later {earlier : List (ι × ρ)} (h : Guarded good p) :
    Guarded (fun before => good (earlier ++ before)) p :=
  fun exchanges outcome hrun before x after hsplit =>
    hmono earlier before x.1 (h exchanges outcome hrun before x after hsplit)

theorem Guarded.seq (hp : Guarded good p) (hf : ∀ value, Guarded good (f value)) :
    Guarded good (p >>= f) :=
  hp.bind fun _ value _ => (hf value).later hmono

theorem Guarded.mapEach {xs : List β} {body : β → Program ι ρ μ ε α}
    (h : ∀ x ∈ xs, Guarded good (body x)) : Guarded good (Program.mapEach xs body) := by
  induction xs with
  | nil => exact guarded_pure
  | cons x xs ih =>
    rw [List.forall_mem_cons] at h
    exact h.1.seq hmono fun _ => (ih h.2).seq hmono fun _ => guarded_pure

end Later

/-- What a step of a machine keeps, after what came before it, the run keeps. -/
theorem Replays.preserves_after {M : Machine ι ρ σ} {P : σ → Prop} {s s' : σ}
    {exchanges : List (ι × ρ)} (h : Replays M s exchanges s')
    (hstep : ∀ before x after mid mid', exchanges = before ++ x :: after →
      Replays M s before mid → M mid x.1 x.2 mid' → P mid → P mid') (hs : P s) : P s' := by
  induction exchanges using List.reverseRecOn generalizing s' with
  | nil =>
    obtain rfl := replays_nil_iff.mp h
    exact hs
  | append_singleton before x ih =>
    obtain ⟨mid, hbefore, hlast⟩ := replays_append_iff.mp h
    obtain ⟨mid', hstep', hnil⟩ := replays_cons_iff.mp hlast
    obtain rfl := replays_nil_iff.mp hnil
    refine hstep before x [] mid s' rfl hbefore hstep' (ih hbefore ?_)
    intro before' x' after' mid₁ mid₂ hsplit
    exact hstep before' x' (after' ++ [x]) mid₁ mid₂ (by rw [hsplit]; simp)

end Interaction
