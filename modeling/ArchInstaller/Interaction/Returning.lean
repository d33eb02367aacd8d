import ArchInstaller.Interaction.Machine

/-! # What is known when a program returns

`Returns M s p Q`: every run of `p` that returns, and that the machine `M` follows from state
`s`, has `Q` of its exchanges, of the value and of the state it leaves. Nothing is said of a run
that raises an error or is cut off. -/

namespace Interaction

variable {ι ρ μ ε α β σ : Type}

def Returns (M : Machine ι ρ σ) (s : σ) (p : Program ι ρ μ ε α)
    (Q : List (ι × ρ) → α → σ → Prop) : Prop :=
  ∀ exchanges value s', Runs p exchanges (.returned value) → Replays M s exchanges s' →
    Q exchanges value s'

variable {M : Machine ι ρ σ} {s : σ} {p : Program ι ρ μ ε α} {f : α → Program ι ρ μ ε β}
  {Q : List (ι × ρ) → α → σ → Prop}

theorem returns_ret {value : α} (h : Q [] value s) :
    Returns M s (.ret value : Program ι ρ μ ε α) Q := by
  intro exchanges value' s' hrun hreplay
  obtain ⟨rfl, hvalue⟩ := runs_ret_iff.mp hrun
  obtain rfl := replays_nil_iff.mp hreplay
  obtain rfl : value' = value := by simpa using hvalue
  exact h

theorem returns_raise {error : ε} : Returns M s (.raise error : Program ι ρ μ ε α) Q := by
  intro exchanges value s' hrun _
  exact absurd (runs_raise_iff.mp hrun).2 (by simp)

@[simp] theorem returns_log {message : μ} :
    Returns M s (.log message p) Q ↔ Returns M s p Q := by
  simp only [Returns, runs_log_iff]

theorem returns_request {invocation : ι} {rest : ρ → Program ι ρ μ ε α}
    (h : ∀ answer mid, M s invocation answer mid →
      Returns M mid (rest answer) fun exchanges => Q ((invocation, answer) :: exchanges)) :
    Returns M s (.request invocation rest) Q := by
  intro exchanges value s' hrun hreplay
  rcases runs_request_iff.mp hrun with ⟨-, ⟨⟩⟩ | ⟨answer, tail, rfl, hrest⟩
  obtain ⟨mid, hstep, htail⟩ := replays_cons_iff.mp hreplay
  exact h answer mid hstep tail value s' hrest htail

theorem Returns.mono {Q' : List (ι × ρ) → α → σ → Prop} (h : Returns M s p Q)
    (himp : ∀ exchanges value s', Q exchanges value s' → Q' exchanges value s') :
    Returns M s p Q' :=
  fun exchanges value s' hrun hreplay =>
    himp exchanges value s' (h exchanges value s' hrun hreplay)

theorem Returns.bind {Q' : List (ι × ρ) → β → σ → Prop} (hp : Returns M s p Q)
    (hf : ∀ first value mid, Q first value mid →
      Returns M mid (f value) fun second => Q' (first ++ second)) :
    Returns M s (p >>= f) Q' := by
  intro exchanges value' s' hrun hreplay
  obtain ⟨first, value, second, rfl, hfirst, hsecond⟩ := runs_bind_returned_iff.mp hrun
  obtain ⟨mid, hreplayFirst, hreplaySecond⟩ := replays_append_iff.mp hreplay
  exact hf first value mid (hp first value mid hfirst hreplayFirst) second value' s' hsecond
    hreplaySecond

theorem Returns.onlyIf {condition : Bool} {p : Program ι ρ μ ε Unit}
    {Q : List (ι × ρ) → Unit → σ → Prop} (hp : condition = true → Returns M s p Q)
    (hskip : condition = false → Q [] () s) :
    Returns M s (Program.onlyIf condition p) Q := by
  cases condition with
  | false => exact returns_ret (hskip rfl)
  | true => exact hp rfl

/-- The cleanup runs after a body that returned, and its errors would be raised. -/
theorem Returns.tryFinally {cleanup : Program ι ρ μ ε Unit} {Q' : List (ι × ρ) → α → σ → Prop}
    (hp : Returns M s p Q)
    (hcleanup : ∀ first value mid, Q first value mid →
      Returns M mid cleanup fun second _ => Q' (first ++ second) value) :
    Returns M s (p.tryFinally cleanup) Q' := by
  intro exchanges value s' hrun hreplay
  obtain ⟨first, ending, second, rfl, hattempt, hrest⟩ := runs_bind_returned_iff.mp hrun
  obtain ⟨cleaned, _, last, rfl, hclean, hending⟩ := runs_bind_returned_iff.mp hrest
  obtain ⟨mid, hreplayFirst, hreplaySecond⟩ := replays_append_iff.mp hreplay
  cases ending with
  | error error => simp [Program.ofExcept, runs_raise_iff] at hending
  | ok value' =>
    obtain ⟨rfl, hvalue⟩ := runs_ret_iff.mp hending
    obtain rfl : value = value' := by simpa using hvalue
    have hbody : Runs p first (.returned value) := by simpa [runs_attempt_iff] using hattempt
    rw [List.append_nil] at hreplaySecond ⊢
    exact hcleanup first value mid (hp first value mid hbody hreplayFirst) cleaned () s' hclean
      hreplaySecond

/-- A loop that collects values: `I` holds of the elements done so far. -/
theorem Returns.mapEach {xs : List β} {body : β → Program ι ρ μ ε α}
    {I : List β → List (ι × ρ) → List α → σ → Prop} (hI : I [] [] [] s)
    (hbody : ∀ done x left exchanges values s, xs = done ++ x :: left →
      I done exchanges values s → Returns M s (body x) fun exchanges' value =>
        I (done ++ [x]) (exchanges ++ exchanges') (values ++ [value])) :
    Returns M s (Program.mapEach xs body) (I xs) := by
  suffices h : ∀ left done exchanges values s, xs = done ++ left → I done exchanges values s →
      Returns M s (Program.mapEach left body) fun exchanges' values' =>
        I xs (exchanges ++ exchanges') (values ++ values') by
    simpa using h xs [] [] [] s rfl hI
  intro left
  induction left with
  | nil =>
    rintro done exchanges values s rfl hI
    exact returns_ret (by simpa using hI)
  | cons x left ih =>
    intro done exchanges values s hxs hI
    rw [Program.mapEach]
    refine (hbody done x left exchanges values s hxs hI).bind fun first value mid hmid => ?_
    refine (ih (done ++ [x]) _ _ mid (by rw [hxs, List.append_assoc]; rfl) hmid).bind
      fun second values' s' hs' => ?_
    exact returns_ret (by simpa using hs')

end Interaction
