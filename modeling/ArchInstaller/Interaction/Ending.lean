import ArchInstaller.Interaction.Issues

/-! # How a program leaves a machine

`Ends M s p post`: every run of `p` that ends, by a value or an error, and that the machine `M`
follows from state `s`, has `post` of its exchanges, of the way it ends and of the state it leaves.
A run that is cut off is not considered. The rule for `tryFinally` is the one for a program that
gives back what it acquired. -/

namespace Interaction

variable {ι ρ μ ε α β σ : Type}

def Ends (M : Machine ι ρ σ) (s : σ) (p : Program ι ρ μ ε α)
    (post : List (ι × ρ) → Outcome ε α → σ → Prop) : Prop :=
  ∀ exchanges outcome s', Runs p exchanges outcome → Replays M s exchanges s' →
    outcome ≠ .stopped → post exchanges outcome s'

section Ends

variable {M : Machine ι ρ σ} {s : σ} {p : Program ι ρ μ ε α} {f : α → Program ι ρ μ ε β}
  {post : List (ι × ρ) → Outcome ε α → σ → Prop}

theorem ends_ret {value : α} (h : post [] (.returned value) s) :
    Ends M s (.ret value : Program ι ρ μ ε α) post := by
  intro exchanges outcome s' hrun hreplay hended
  obtain ⟨rfl, rfl | rfl⟩ := runs_ret_iff.mp hrun
  · obtain rfl := replays_nil_iff.mp hreplay
    exact h
  · exact absurd rfl hended

theorem ends_raise {error : ε} (h : post [] (.raised error) s) :
    Ends M s (.raise error : Program ι ρ μ ε α) post := by
  intro exchanges outcome s' hrun hreplay hended
  obtain ⟨rfl, rfl | rfl⟩ := runs_raise_iff.mp hrun
  · obtain rfl := replays_nil_iff.mp hreplay
    exact h
  · exact absurd rfl hended

theorem ends_request {invocation : ι} {rest : ρ → Program ι ρ μ ε α}
    (h : ∀ answer s', M s invocation answer s' →
      Ends M s' (rest answer) fun exchanges => post ((invocation, answer) :: exchanges)) :
    Ends M s (.request invocation rest) post := by
  intro exchanges outcome s' hrun hreplay hended
  rcases runs_request_iff.mp hrun with ⟨-, rfl⟩ | ⟨answer, tail, rfl, hrest⟩
  · exact absurd rfl hended
  · obtain ⟨mid, hstep, hreplay⟩ := replays_cons_iff.mp hreplay
    exact h answer mid hstep tail outcome s' hrest hreplay hended

@[simp] theorem ends_log {message : μ} : Ends M s (.log message p) post ↔ Ends M s p post := by
  simp only [Ends, runs_log_iff]

theorem Ends.mono {post' : List (ι × ρ) → Outcome ε α → σ → Prop} (h : Ends M s p post)
    (himp : ∀ exchanges outcome s', post exchanges outcome s' → post' exchanges outcome s') :
    Ends M s p post' :=
  fun exchanges outcome s' hrun hreplay hended =>
    himp exchanges outcome s' (h exchanges outcome s' hrun hreplay hended)

theorem Ends.bind {post' : List (ι × ρ) → Outcome ε β → σ → Prop} (hp : Ends M s p post)
    (hraised : ∀ exchanges error s', post exchanges (.raised error) s' →
      post' exchanges (.raised error) s')
    (hf : ∀ first value s', post first (.returned value) s' →
      Ends M s' (f value) fun second => post' (first ++ second)) :
    Ends M s (p >>= f) post' := by
  intro exchanges outcome s' hrun hreplay hended
  rcases runs_bind_iff.mp hrun with
    ⟨first, value, second, rfl, hfirst, hsecond⟩ | ⟨error, hraise, rfl⟩ | ⟨-, rfl⟩
  · obtain ⟨mid, hreplayFirst, hreplaySecond⟩ := replays_append_iff.mp hreplay
    exact hf first value mid (hp first _ mid hfirst hreplayFirst (by simp)) second outcome s'
      hsecond hreplaySecond hended
  · exact hraised exchanges error s' (hp exchanges _ s' hraise hreplay (by simp))
  · exact absurd rfl hended

theorem Ends.raised_bind {error : ε} (h : Ends M s p fun _ outcome _ => outcome = .raised error) :
    Ends M s (p >>= f) fun _ outcome _ => outcome = .raised error := by
  refine h.bind (fun _ error' _ h => ?_) fun _ _ _ h => by cases h
  rw [Outcome.raised.inj h]

theorem Ends.onlyIf {condition : Bool} {p : Program ι ρ μ ε Unit}
    {post : List (ι × ρ) → Outcome ε Unit → σ → Prop} (hp : condition = true → Ends M s p post)
    (hskip : condition = false → post [] (.returned ()) s) :
    Ends M s (Program.onlyIf condition p) post := by
  cases condition with
  | false => exact ends_ret (hskip rfl)
  | true => exact hp rfl

/-- A loop with an accumulator, of which every step returns; `I` holds of the elements done so
far. -/
theorem Ends.foldlM {τ : Type} {body : τ → β → Program ι ρ μ ε τ} {xs : List β} {init : τ}
    {I : List β → List (ι × ρ) → τ → σ → Prop}
    (hbody : ∀ done x left before acc s, xs = done ++ x :: left → I done before acc s →
      Ends M s (body acc x) fun exchanges outcome s' => ∃ acc', outcome = .returned acc' ∧
        I (done ++ [x]) (before ++ exchanges) acc' s') (hinit : I [] [] init s) :
    Ends M s (xs.foldlM body init) fun exchanges outcome s' =>
      ∃ acc, outcome = .returned acc ∧ I xs exchanges acc s' := by
  suffices h : ∀ left done before acc s, xs = done ++ left → I done before acc s →
      Ends M s (left.foldlM body acc) fun exchanges outcome s' =>
        ∃ acc', outcome = .returned acc' ∧ I xs (before ++ exchanges) acc' s' from
    h xs [] [] init s rfl hinit
  intro left
  induction left with
  | nil =>
    intro done before acc s hxs hI
    rw [List.append_nil] at hxs
    subst hxs
    exact ends_ret ⟨acc, rfl, by rwa [List.append_nil]⟩
  | cons x left ih =>
    intro done before acc s hxs hI
    rw [List.foldlM_cons]
    refine (hbody done x left before acc s hxs hI).bind (fun _ _ _ h => ?_)
      fun first acc' s' h => ?_
    · obtain ⟨_, hreturned, -⟩ := h
      cases hreturned
    · obtain ⟨_, hreturned, hI'⟩ := h
      obtain rfl := Outcome.returned.inj hreturned
      refine (ih (done ++ [x]) (before ++ first) acc' s' (by simp [hxs]) hI').mono ?_
      rintro second outcome s'' ⟨acc'', rfl, hend⟩
      exact ⟨acc'', rfl, by rwa [← List.append_assoc]⟩

/-- However the body ends, the cleanup runs after it. -/
theorem Ends.tryFinally {cleanup : Program ι ρ μ ε Unit}
    {post : List (ι × ρ) → σ → Prop} {post' : List (ι × ρ) → σ → Prop}
    (hp : Ends M s p fun exchanges _ s' => post exchanges s')
    (hcleanup : ∀ first s', post first s' →
      Ends M s' cleanup fun second _ s'' => post' (first ++ second) s'') :
    Ends M s (p.tryFinally cleanup) fun exchanges _ s' => post' exchanges s' := by
  have hattempt : Ends M s p.attempt fun exchanges outcome s' =>
      post exchanges s' ∧ ∃ ending, outcome = .returned ending := by
    intro exchanges outcome s' hrun hreplay hended
    rcases runs_attempt_iff.mp hrun with ⟨value, hp', rfl⟩ | ⟨error, hp', rfl⟩ | ⟨-, rfl⟩
    · exact ⟨hp exchanges _ s' hp' hreplay (by simp), _, rfl⟩
    · exact ⟨hp exchanges _ s' hp' hreplay (by simp), _, rfl⟩
    · exact absurd rfl hended
  refine hattempt.bind (fun _ _ _ h => by simp at h) fun first ending s' hfirst => ?_
  refine (hcleanup first s' hfirst.1).bind (fun _ _ _ h => h) fun second _ s'' hsecond => ?_
  cases ending with
  | ok value => exact ends_ret (by simpa using hsecond)
  | error error => exact ends_raise (by simpa using hsecond)

/-- A program whose requests all leave the state alone. -/
theorem IssuesGiven.ends {good : ι → Prop} (h : Issues good p)
    (hstep : ∀ i r s s', good i → M s i r s' → s' = s) :
    Ends M s p fun exchanges _ s' => s' = s ∧ ∀ x ∈ exchanges, good x.1 := by
  intro exchanges outcome s' hrun hreplay _
  refine ⟨?_, h.of_runs hrun⟩
  exact h.preserves (P := (· = s)) (fun i r mid mid' hgood hmid hM =>
    (hstep i r mid mid' hgood hM).trans hmid) allAllowed_true hrun hreplay rfl

end Ends

end Interaction
