import ArchInstaller.Interaction.Issues

/-! # Programs under a monitor

`Accepts M s p post`: the machine `M`, started in state `s`, can follow every run of `p`, cut-off
runs included, and a run that returns leaves it in a state with `post`. A machine with no step for
a request in some state is a safety monitor: what it accepts never issues the request there. -/

namespace Interaction

variable {ι ρ μ ε α β σ : Type}

def Accepts (M : Machine ι ρ σ) (s : σ) (p : Program ι ρ μ ε α) (post : α → σ → Prop) : Prop :=
  ∀ exchanges outcome, Runs p exchanges outcome →
    ∃ s', Replays M s exchanges s' ∧ ∀ value, outcome = .returned value → post value s'

section Accepts

variable {M : Machine ι ρ σ} {s : σ} {p : Program ι ρ μ ε α} {f : α → Program ι ρ μ ε β}
  {post : α → σ → Prop}

theorem accepts_ret {value : α} (h : post value s) :
    Accepts M s (.ret value : Program ι ρ μ ε α) post := by
  intro exchanges outcome hrun
  obtain ⟨rfl, rfl | rfl⟩ := runs_ret_iff.mp hrun
  · exact ⟨s, .nil, by rintro _ ⟨⟩; exact h⟩
  · exact ⟨s, .nil, by rintro _ ⟨⟩⟩

@[simp] theorem accepts_log {message : μ} :
    Accepts M s (.log message p) post ↔ Accepts M s p post := by
  simp only [Accepts, runs_log_iff]

theorem Accepts.mono {post' : α → σ → Prop} (h : Accepts M s p post)
    (himp : ∀ value s', post value s' → post' value s') : Accepts M s p post' := by
  intro exchanges outcome hrun
  obtain ⟨s', hreplay, hpost⟩ := h exchanges outcome hrun
  exact ⟨s', hreplay, fun value hvalue => himp _ _ (hpost value hvalue)⟩

theorem Accepts.bind {post' : β → σ → Prop} (hp : Accepts M s p post)
    (hf : ∀ value s', post value s' → Accepts M s' (f value) post') :
    Accepts M s (p >>= f) post' := by
  intro exchanges outcome hrun
  rcases runs_bind_iff.mp hrun with
    ⟨first, value, second, rfl, hfirst, hsecond⟩ | ⟨error, hraised, rfl⟩ | ⟨hstopped, rfl⟩
  · obtain ⟨mid, hreplay, hmid⟩ := hp first _ hfirst
    obtain ⟨s', hreplay', hpost⟩ := hf value mid (hmid value rfl) second outcome hsecond
    exact ⟨s', replays_append_iff.mpr ⟨mid, hreplay, hreplay'⟩, hpost⟩
  · obtain ⟨s', hreplay, -⟩ := hp exchanges _ hraised
    exact ⟨s', hreplay, by rintro _ ⟨⟩⟩
  · obtain ⟨s', hreplay, -⟩ := hp exchanges _ hstopped
    exact ⟨s', hreplay, by rintro _ ⟨⟩⟩

theorem Accepts.onlyIf {condition : Bool} {p : Program ι ρ μ ε Unit} {post : Unit → σ → Prop}
    (hp : condition = true → Accepts M s p post) (hskip : condition = false → post () s) :
    Accepts M s (Program.onlyIf condition p) post := by
  cases condition with
  | false => exact accepts_ret (hskip rfl)
  | true => exact hp rfl

/-- The machine follows a program whose requests all keep an invariant of it. -/
theorem IssuesGiven.accepts {good : ι → Prop}
    (h : Issues good p) {I : σ → Prop}
    (hstep : ∀ i r s, good i → I s → ∃ s', M s i r s' ∧ I s') (hs : I s) :
    Accepts M s p fun _ s' => I s' := by
  intro exchanges outcome hrun
  suffices hfollow : ∀ exchanges : List (ι × ρ), (∀ x ∈ exchanges, good x.1) → ∀ s, I s →
      ∃ s', Replays M s exchanges s' ∧ I s' by
    obtain ⟨s', hreplay, hI⟩ := hfollow exchanges (h _ _ allAllowed_true hrun) s hs
    exact ⟨s', hreplay, fun _ _ => hI⟩
  intro exchanges hgood
  induction exchanges with
  | nil => exact fun s hs => ⟨s, .nil, hs⟩
  | cons x exchanges ih =>
    intro s hs
    rw [List.forall_mem_cons] at hgood
    obtain ⟨mid, hfirst, hmid⟩ := hstep x.1 x.2 s hgood.1 hs
    obtain ⟨s', hrest, hI⟩ := ih hgood.2 mid hmid
    exact ⟨s', .cons hfirst hrest, hI⟩

end Accepts

end Interaction
