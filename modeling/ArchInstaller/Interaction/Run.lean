import ArchInstaller.Interaction.Program

/-! # Runs of a program

`Runs p exchanges outcome`: answering the requests of `p` as listed in `exchanges` ends in
`outcome`. Log messages do not show in the exchanges. The inversion lemmas below say what a run
of each program construct looks like; proofs about a concrete program take its runs apart with
them. -/

namespace Interaction

variable {ι ρ μ ε α β : Type}

inductive Runs : Program ι ρ μ ε α → List (ι × ρ) → Outcome ε α → Prop
  | stopped : Runs p [] .stopped
  | ret : Runs (.ret value) [] (.returned value)
  | raise : Runs (.raise error) [] (.raised error)
  | log : Runs rest exchanges outcome → Runs (.log message rest) exchanges outcome
  | request : Runs (rest answer) exchanges outcome →
    Runs (.request invocation rest) ((invocation, answer) :: exchanges) outcome

section Inversion

variable {exchanges : List (ι × ρ)} {p : Program ι ρ μ ε α} {f : α → Program ι ρ μ ε β}

theorem runs_ret_iff {value : α} {outcome : Outcome ε α} :
    Runs (.ret value : Program ι ρ μ ε α) exchanges outcome ↔
      exchanges = [] ∧ (outcome = .returned value ∨ outcome = .stopped) := by
  constructor
  · rintro (_ | _) <;> simp
  · rintro ⟨rfl, rfl | rfl⟩
    · exact .ret
    · exact .stopped

theorem runs_pure_iff {value : α} {outcome : Outcome ε α} :
    Runs (pure value : Program ι ρ μ ε α) exchanges outcome ↔
      exchanges = [] ∧ (outcome = .returned value ∨ outcome = .stopped) :=
  runs_ret_iff

theorem runs_raise_iff {error : ε} {outcome : Outcome ε α} :
    Runs (.raise error : Program ι ρ μ ε α) exchanges outcome ↔
      exchanges = [] ∧ (outcome = .raised error ∨ outcome = .stopped) := by
  constructor
  · rintro (_ | _) <;> simp
  · rintro ⟨rfl, rfl | rfl⟩
    · exact .raise
    · exact .stopped

theorem runs_log_iff {message : μ} {outcome : Outcome ε α} :
    Runs (.log message p) exchanges outcome ↔ Runs p exchanges outcome := by
  constructor
  · rintro (_ | _)
    · exact .stopped
    · assumption
  · exact .log

theorem runs_request_iff {invocation : ι} {rest : ρ → Program ι ρ μ ε α} {outcome : Outcome ε α} :
    Runs (.request invocation rest) exchanges outcome ↔
      (exchanges = [] ∧ outcome = .stopped) ∨
        ∃ answer tail, exchanges = (invocation, answer) :: tail ∧
          Runs (rest answer) tail outcome := by
  constructor
  · intro h
    cases h with
    | stopped => exact .inl ⟨rfl, rfl⟩
    | request h => exact .inr ⟨_, _, rfl, h⟩
  · rintro (⟨rfl, rfl⟩ | ⟨answer, tail, rfl, h⟩)
    · exact .stopped
    · exact .request h

/-- The first part of a sequence returned and the second part ran, or the first part did not
return and the second never started. -/
theorem runs_bind_iff {outcome : Outcome ε β} :
    Runs (p >>= f) exchanges outcome ↔
      (∃ first value second, exchanges = first ++ second ∧ Runs p first (.returned value) ∧
        Runs (f value) second outcome) ∨
      (∃ error, Runs p exchanges (.raised error) ∧ outcome = .raised error) ∨
      (Runs p exchanges .stopped ∧ outcome = .stopped) := by
  induction p generalizing exchanges with
  | ret value =>
    rw [Program.ret_bind]
    constructor
    · intro h
      exact .inl ⟨[], value, exchanges, rfl, .ret, h⟩
    · rintro (⟨first, value, second, rfl, hfirst, hsecond⟩ | ⟨error, h, -⟩ | ⟨h, rfl⟩)
      · cases hfirst
        exact hsecond
      · cases h
      · cases h
        exact .stopped
  | raise error =>
    rw [Program.raise_bind, runs_raise_iff]
    constructor
    · rintro ⟨rfl, rfl | rfl⟩
      · exact .inr (.inl ⟨error, .raise, rfl⟩)
      · exact .inr (.inr ⟨.stopped, rfl⟩)
    · rintro (⟨first, value, second, rfl, hfirst, hsecond⟩ | ⟨error, h, rfl⟩ | ⟨h, rfl⟩)
      · cases hfirst
      · cases h
        exact ⟨rfl, .inl rfl⟩
      · cases h
        exact ⟨rfl, .inr rfl⟩
  | log message rest ih =>
    simp only [Program.log_bind, runs_log_iff, ih]
  | request invocation rest ih =>
    rw [Program.request_bind, runs_request_iff]
    constructor
    · rintro (⟨rfl, rfl⟩ | ⟨answer, tail, rfl, h⟩)
      · exact .inr (.inr ⟨.stopped, rfl⟩)
      · rcases (ih answer).mp h with
          ⟨first, value, second, rfl, hfirst, hsecond⟩ | ⟨error, hraised, rfl⟩ | ⟨hstopped, rfl⟩
        · exact .inl ⟨_ :: first, value, second, rfl, .request hfirst, hsecond⟩
        · exact .inr (.inl ⟨error, .request hraised, rfl⟩)
        · exact .inr (.inr ⟨.request hstopped, rfl⟩)
    · rintro (⟨first, value, second, rfl, hfirst, hsecond⟩ | ⟨error, h, rfl⟩ | ⟨h, rfl⟩)
      · cases hfirst with
        | request hfirst =>
          exact .inr ⟨_, _, rfl, (ih _).mpr (.inl ⟨_, value, second, rfl, hfirst, hsecond⟩)⟩
      · cases h with
        | request h => exact .inr ⟨_, _, rfl, (ih _).mpr (.inr (.inl ⟨error, h, rfl⟩))⟩
      · cases h with
        | stopped => exact .inl ⟨rfl, rfl⟩
        | request h => exact .inr ⟨_, _, rfl, (ih _).mpr (.inr (.inr ⟨h, rfl⟩))⟩

theorem Runs.seq {first second : List (ι × ρ)} {value : α} {outcome : Outcome ε β}
    (h : Runs p first (.returned value)) (h' : Runs (f value) second outcome) :
    Runs (p >>= f) (first ++ second) outcome :=
  runs_bind_iff.mpr (.inl ⟨first, value, second, rfl, h, h'⟩)

/-- The second part asks for nothing. -/
theorem Runs.last {value : α} {outcome : Outcome ε β} (h : Runs p exchanges (.returned value))
    (h' : Runs (f value) [] outcome) : Runs (p >>= f) exchanges outcome := by
  have hseq := Runs.seq h h'
  rwa [List.append_nil] at hseq

theorem runs_bind_returned_iff {value : β} :
    Runs (p >>= f) exchanges (.returned value) ↔
      ∃ first mid second, exchanges = first ++ second ∧ Runs p first (.returned mid) ∧
        Runs (f mid) second (.returned value) := by
  simp [runs_bind_iff]

@[simp] theorem runs_map_returned_iff {f : α → β} {value : β} :
    Runs (f <$> p) exchanges (.returned value) ↔
      ∃ mid, Runs p exchanges (.returned mid) ∧ value = f mid := by
  rw [map_eq_pure_bind, runs_bind_returned_iff]
  simp only [runs_pure_iff]
  grind

theorem runs_onlyIf_iff {condition : Bool} {p : Program ι ρ μ ε Unit} {outcome : Outcome ε Unit} :
    Runs (Program.onlyIf condition p) exchanges outcome ↔
      if condition then Runs p exchanges outcome
      else exchanges = [] ∧ (outcome = .returned () ∨ outcome = .stopped) := by
  unfold Program.onlyIf
  split
  · rfl
  · exact runs_pure_iff

@[simp] theorem runs_onlyIf_returned_iff {condition : Bool} {p : Program ι ρ μ ε Unit}
    {value : Unit} :
    Runs (Program.onlyIf condition p) exchanges (.returned value) ↔
      if condition then Runs p exchanges (.returned value) else exchanges = [] := by
  simp [runs_onlyIf_iff]

theorem Runs.stop {outcome : Outcome ε α} (h : Runs p exchanges outcome) :
    Runs p exchanges .stopped := by
  induction h with
  | stopped | ret | raise => exact .stopped
  | log _ ih => exact .log ih
  | request _ ih => exact .request ih

theorem runs_attempt_iff {outcome : Outcome ε (Except ε α)} :
    Runs p.attempt exchanges outcome ↔
      (∃ value, Runs p exchanges (.returned value) ∧ outcome = .returned (.ok value)) ∨
      (∃ error, Runs p exchanges (.raised error) ∧ outcome = .returned (.error error)) ∨
      (Runs p exchanges .stopped ∧ outcome = .stopped) := by
  induction p generalizing exchanges with
  | ret value => grind [Program.attempt, runs_ret_iff]
  | raise error => grind [Program.attempt, runs_ret_iff, runs_raise_iff]
  | log message rest ih => simp only [Program.attempt, runs_log_iff, ih]
  | request invocation rest ih =>
    simp only [Program.attempt, runs_request_iff, ih]
    grind

/-- A loop with an accumulator: `I` holds of the elements done so far, and a loop that does not end
has left one of them unfinished. -/
theorem runs_foldlM {σ : Type} {body : σ → β → Program ι ρ μ ε σ} {init : σ} {xs : List β}
    {outcome : Outcome ε σ} {I : List β → List (ι × ρ) → σ → Prop} (hinit : I [] [] init)
    (hbody : ∀ done x left exchanges s, xs = done ++ x :: left → I done exchanges s →
      ∀ exchanges' s', Runs (body s x) exchanges' (.returned s') →
        I (done ++ [x]) (exchanges ++ exchanges') s')
    (hrun : Runs (xs.foldlM body init) exchanges outcome) :
    (∃ s, I xs exchanges s ∧ (outcome = .returned s ∨ outcome = .stopped)) ∨
      ∃ done x left s first second outcome', xs = done ++ x :: left ∧ exchanges = first ++ second ∧
        I done first s ∧ Runs (body s x) second outcome' ∧ ∀ s', outcome ≠ .returned s' := by
  suffices h : ∀ left done s before exchanges, xs = done ++ left → I done before s →
      Runs (left.foldlM body s) exchanges outcome →
        (∃ s, I xs (before ++ exchanges) s ∧ (outcome = .returned s ∨ outcome = .stopped)) ∨
          ∃ done x left s first second outcome', xs = done ++ x :: left ∧
            before ++ exchanges = first ++ second ∧ I done first s ∧
            Runs (body s x) second outcome' ∧ ∀ s', outcome ≠ .returned s' by
    simpa using h xs [] init [] exchanges rfl hinit hrun
  intro left
  induction left with
  | nil =>
    intro done s before exchanges hxs hI hrun
    rw [List.append_nil] at hxs
    rw [List.foldlM_nil] at hrun
    obtain ⟨rfl, houtcome⟩ := runs_pure_iff.mp hrun
    subst hxs
    exact .inl ⟨s, by simpa using hI, houtcome⟩
  | cons x left ih =>
    intro done s before exchanges hxs hI hrun
    rw [List.foldlM_cons] at hrun
    rcases runs_bind_iff.mp hrun with
      ⟨first, s', second, rfl, hfirst, hsecond⟩ | ⟨error, hraised, rfl⟩ | ⟨hstopped, rfl⟩
    · have hdone := hbody done x left before s hxs hI first s' hfirst
      rw [← List.append_assoc]
      exact ih (done ++ [x]) s' (before ++ first) second (by rw [hxs, List.append_assoc]; rfl) hdone
        hsecond
    · exact .inr ⟨done, x, left, s, before, exchanges, _, hxs, rfl, hI, hraised, by simp⟩
    · exact .inr ⟨done, x, left, s, before, exchanges, _, hxs, rfl, hI, hstopped, by simp⟩

end Inversion

/-! ## Going on alike -/

/-- What follows need only agree on the values that are returned. -/
theorem bind_congr_of_runs {p : Program ι ρ μ ε α} {f g : α → Program ι ρ μ ε β}
    (h : ∀ exchanges value, Runs p exchanges (.returned value) → f value = g value) :
    p >>= f = p >>= g := by
  induction p with
  | ret value => exact h [] value .ret
  | raise => rfl
  | log message rest ih =>
    rw [Program.log_bind, Program.log_bind, ih fun exchanges value hrun => h exchanges value (.log hrun)]
  | request invocation rest ih =>
    rw [Program.request_bind, Program.request_bind]
    congr 1
    funext answer
    exact ih answer fun exchanges value hrun => h _ value (.request hrun)

/-- The loops are one loop where the bodies agree on the accumulators that are reached. -/
theorem foldlM_congr_of_runs {σ : Type} {I : σ → Prop} {body body' : σ → β → Program ι ρ μ ε σ}
    {init : σ} {xs : List β} (hinit : I init)
    (hbody : ∀ done x left s, xs = done ++ x :: left → I s → body s x = body' s x ∧
      ∀ exchanges s', Runs (body s x) exchanges (.returned s') → I s') :
    xs.foldlM body init = xs.foldlM body' init ∧
      ∀ exchanges s, Runs (xs.foldlM body init) exchanges (.returned s) → I s := by
  induction xs generalizing init with
  | nil =>
    refine ⟨rfl, fun exchanges s hrun => ?_⟩
    rw [List.foldlM_nil] at hrun
    obtain rfl : s = init := by simpa using (runs_pure_iff.mp hrun).2
    exact hinit
  | cons x xs ih =>
    obtain ⟨hsame, hkept⟩ := hbody [] x xs init rfl hinit
    have hrest : ∀ s, I s → xs.foldlM body s = xs.foldlM body' s ∧
        ∀ exchanges s', Runs (xs.foldlM body s) exchanges (.returned s') → I s' := fun s hs =>
      ih hs fun done x' left s hxs hs => hbody (x :: done) x' left s (by rw [hxs]; rfl) hs
    constructor
    · rw [List.foldlM_cons, List.foldlM_cons, ← hsame]
      exact bind_congr_of_runs fun exchanges s hrun => (hrest s (hkept exchanges s hrun)).1
    · intro exchanges s hrun
      rw [List.foldlM_cons] at hrun
      obtain ⟨first, mid, second, -, hfirst, hsecond⟩ := runs_bind_returned_iff.mp hrun
      exact (hrest mid (hkept first mid hfirst)).2 second s hsecond

/-! ## Answered runs -/

/-- The end of the run in which each request is answered, given the exchanges before it. -/
def Program.answered (answer : List (ι × ρ) → ι → Except ε ρ) :
    Program ι ρ μ ε α → List (ι × ρ) → Except ε α
  | .ret value, _ => .ok value
  | .raise error, _ => .error error
  | .log _ rest, before => rest.answered answer before
  | .request invocation rest, before =>
    match answer before invocation with
    | .ok reply => (rest reply).answered answer (before ++ [(invocation, reply)])
    | .error error => .error error

theorem runs_of_answered {answer : List (ι × ρ) → ι → Except ε ρ} {p : Program ι ρ μ ε α}
    {before : List (ι × ρ)} {value : α} (h : p.answered answer before = .ok value) :
    ∃ exchanges, Runs p exchanges (.returned value) := by
  induction p generalizing before with
  | ret =>
    cases h
    exact ⟨[], .ret⟩
  | raise => cases h
  | log message rest ih =>
    obtain ⟨exchanges, hrun⟩ := ih h
    exact ⟨exchanges, .log hrun⟩
  | request invocation rest ih =>
    rw [Program.answered] at h
    split at h
    · obtain ⟨exchanges, hrun⟩ := ih _ h
      exact ⟨_, .request hrun⟩
    · cases h

end Interaction
