import ArchInstaller.Interaction.Machine

/-! # The requests a program issues

`IssuesGiven allowed good p`: in every run of `p` whose answers are `allowed`, cut-off runs
included, every request is `good`. The rules follow the program constructs; the rule for a
sequence hands on that the value of its first part is one that part can return (`CanReturn`). -/

namespace Interaction

variable {ι ρ μ ε α β σ : Type}

/-- Every answer in the exchanges is allowed. -/
def AllAllowed (allowed : ι → ρ → Prop) (exchanges : List (ι × ρ)) : Prop :=
  ∀ x ∈ exchanges, allowed x.1 x.2

/-- With allowed answers, `p` can return `value`. -/
def CanReturn (allowed : ι → ρ → Prop) (p : Program ι ρ μ ε α) (value : α) : Prop :=
  ∃ exchanges, AllAllowed allowed exchanges ∧ Runs p exchanges (.returned value)

def IssuesGiven (allowed : ι → ρ → Prop) (good : ι → Prop) (p : Program ι ρ μ ε α) : Prop :=
  ∀ exchanges outcome, AllAllowed allowed exchanges → Runs p exchanges outcome →
    ∀ x ∈ exchanges, good x.1

/-- Whatever the answers are. -/
abbrev Issues (good : ι → Prop) (p : Program ι ρ μ ε α) : Prop :=
  IssuesGiven (fun (_ : ι) (_ : ρ) => True) good p

instance {allowed : ι → ρ → Prop} [∀ i r, Decidable (allowed i r)] {exchanges : List (ι × ρ)} :
    Decidable (AllAllowed allowed exchanges) :=
  inferInstanceAs (Decidable (∀ x ∈ exchanges, allowed x.1 x.2))

@[simp] theorem allAllowed_nil {allowed : ι → ρ → Prop} : AllAllowed allowed [] := by
  simp [AllAllowed]

@[simp] theorem allAllowed_cons {allowed : ι → ρ → Prop} {x : ι × ρ} {exchanges : List (ι × ρ)} :
    AllAllowed allowed (x :: exchanges) ↔ allowed x.1 x.2 ∧ AllAllowed allowed exchanges := by
  simp [AllAllowed]

@[simp] theorem allAllowed_append {allowed : ι → ρ → Prop} {first second : List (ι × ρ)} :
    AllAllowed allowed (first ++ second) ↔
      AllAllowed allowed first ∧ AllAllowed allowed second := by
  simp only [AllAllowed, List.mem_append]
  grind

@[simp] theorem allAllowed_true {exchanges : List (ι × ρ)} :
    AllAllowed (fun (_ : ι) (_ : ρ) => True) exchanges := fun _ _ => trivial

section CanReturn

variable {allowed : ι → ρ → Prop} {p : Program ι ρ μ ε α} {f : α → Program ι ρ μ ε β}

@[simp] theorem canReturn_ret {value value' : α} :
    CanReturn allowed (.ret value : Program ι ρ μ ε α) value' ↔ value' = value := by
  simp only [CanReturn, runs_ret_iff]
  grind [allAllowed_nil]

@[simp] theorem canReturn_pure {value value' : α} :
    CanReturn allowed (pure value : Program ι ρ μ ε α) value' ↔ value' = value :=
  canReturn_ret

@[simp] theorem canReturn_raise {error : ε} {value : α} :
    CanReturn allowed (.raise error : Program ι ρ μ ε α) value ↔ False := by
  simp [CanReturn, runs_raise_iff]

@[simp] theorem canReturn_log {message : μ} {value : α} :
    CanReturn allowed (.log message p) value ↔ CanReturn allowed p value := by
  simp [CanReturn, runs_log_iff]

@[simp] theorem canReturn_bind {value : β} :
    CanReturn allowed (p >>= f) value ↔
      ∃ mid, CanReturn allowed p mid ∧ CanReturn allowed (f mid) value := by
  simp only [CanReturn, runs_bind_returned_iff]
  constructor
  · rintro ⟨_, hallowed, first, mid, second, rfl, hfirst, hsecond⟩
    rw [allAllowed_append] at hallowed
    exact ⟨mid, ⟨first, hallowed.1, hfirst⟩, second, hallowed.2, hsecond⟩
  · rintro ⟨mid, ⟨first, hallowed, hfirst⟩, second, hallowed', hsecond⟩
    exact ⟨first ++ second, allAllowed_append.mpr ⟨hallowed, hallowed'⟩, first, mid, second, rfl,
      hfirst, hsecond⟩

@[simp] theorem canReturn_map {g : α → β} {value : β} :
    CanReturn allowed (g <$> p) value ↔ ∃ mid, CanReturn allowed p mid ∧ value = g mid := by
  rw [map_eq_pure_bind, canReturn_bind]
  simp

@[simp] theorem canReturn_ite {condition : Prop} [Decidable condition] {q : Program ι ρ μ ε α}
    {value : α} :
    CanReturn allowed (if condition then p else q) value ↔
      (condition → CanReturn allowed p value) ∧ (¬ condition → CanReturn allowed q value) := by
  split <;> simp [*]

@[simp] theorem canReturn_onlyIf {condition : Bool} {p : Program ι ρ μ ε Unit} {value : Unit} :
    CanReturn allowed (Program.onlyIf condition p) value ↔
      (condition → CanReturn allowed p value) := by
  simp [Program.onlyIf]

theorem CanReturn.bind {mid : α} {value : β} (hp : CanReturn allowed p mid)
    (hf : CanReturn allowed (f mid) value) : CanReturn allowed (p >>= f) value :=
  canReturn_bind.mpr ⟨mid, hp, hf⟩

theorem CanReturn.forEach {xs : List β} {body : β → Program ι ρ μ ε Unit}
    (h : ∀ x ∈ xs, CanReturn allowed (body x) ()) :
    CanReturn allowed (Program.forEach xs body) () := by
  induction xs with
  | nil => simp [Program.forEach]
  | cons x xs ih =>
    rw [List.forall_mem_cons] at h
    exact h.1.bind (ih h.2)

theorem CanReturn.tryFinally {cleanup : Program ι ρ μ ε Unit} {value : α}
    (hp : CanReturn allowed p value) (hcleanup : CanReturn allowed cleanup ()) :
    CanReturn allowed (p.tryFinally cleanup) value := by
  obtain ⟨exchanges, hallowed, hrun⟩ := hp
  have hattempt : CanReturn allowed p.attempt (.ok value) :=
    ⟨exchanges, hallowed, runs_attempt_iff.mpr (.inl ⟨value, hrun, rfl⟩)⟩
  exact hattempt.bind (hcleanup.bind (by simp [Program.ofExcept]))

end CanReturn

section Issues

variable {allowed : ι → ρ → Prop} {good : ι → Prop} {p : Program ι ρ μ ε α}
  {f : α → Program ι ρ μ ε β}

@[simp] theorem issues_ret {value : α} :
    IssuesGiven allowed good (.ret value : Program ι ρ μ ε α) := by
  intro exchanges outcome _ hrun
  simp [(runs_ret_iff.mp hrun).1]

@[simp] theorem issues_pure {value : α} :
    IssuesGiven allowed good (pure value : Program ι ρ μ ε α) :=
  issues_ret

@[simp] theorem issues_raise {error : ε} :
    IssuesGiven allowed good (.raise error : Program ι ρ μ ε α) := by
  intro exchanges outcome _ hrun
  simp [(runs_raise_iff.mp hrun).1]

@[simp] theorem issues_log {message : μ} :
    IssuesGiven allowed good (.log message p) ↔ IssuesGiven allowed good p := by
  simp [IssuesGiven, runs_log_iff]

@[simp] theorem issues_bind :
    IssuesGiven allowed good (p >>= f) ↔ IssuesGiven allowed good p ∧
      ∀ value, CanReturn allowed p value → IssuesGiven allowed good (f value) := by
  constructor
  · intro h
    refine ⟨fun exchanges outcome hallowed hrun => ?_, ?_⟩
    · exact h _ _ hallowed (runs_bind_iff.mpr (.inr (.inr ⟨hrun.stop, rfl⟩)))
    · rintro value ⟨first, hfirst, hp⟩ second outcome hsecond hrun x hx
      refine h (first ++ second) outcome (allAllowed_append.mpr ⟨hfirst, hsecond⟩) ?_ x
        (List.mem_append_right _ hx)
      exact runs_bind_iff.mpr (.inl ⟨first, value, second, rfl, hp, hrun⟩)
  · rintro ⟨hp, hf⟩ exchanges outcome hallowed hrun x hx
    rcases runs_bind_iff.mp hrun with
      ⟨first, value, second, rfl, hfirst, hsecond⟩ | ⟨error, h, rfl⟩ | ⟨h, rfl⟩
    · rw [allAllowed_append] at hallowed
      rcases List.mem_append.mp hx with hx | hx
      · exact hp _ _ hallowed.1 hfirst x hx
      · exact hf value ⟨first, hallowed.1, hfirst⟩ _ _ hallowed.2 hsecond x hx
    · exact hp _ _ hallowed h x hx
    · exact hp _ _ hallowed h x hx

@[simp] theorem issues_map {g : α → β} :
    IssuesGiven allowed good (g <$> p) ↔ IssuesGiven allowed good p := by
  rw [map_eq_pure_bind, issues_bind]
  simp

@[simp] theorem issues_ite {condition : Prop} [Decidable condition] {q : Program ι ρ μ ε α} :
    IssuesGiven allowed good (if condition then p else q) ↔
      (condition → IssuesGiven allowed good p) ∧ (¬ condition → IssuesGiven allowed good q) := by
  split <;> simp [*]

@[simp] theorem issues_onlyIf {condition : Bool} {p : Program ι ρ μ ε Unit} :
    IssuesGiven allowed good (Program.onlyIf condition p) ↔
      (condition → IssuesGiven allowed good p) := by
  simp [Program.onlyIf]

@[simp] theorem IssuesGiven.forEach {xs : List β} {body : β → Program ι ρ μ ε Unit}
    (h : ∀ x ∈ xs, IssuesGiven allowed good (body x)) :
    IssuesGiven allowed good (Program.forEach xs body) := by
  induction xs with
  | nil => simp [Program.forEach]
  | cons x xs ih =>
    simp only [List.mem_cons, forall_eq_or_imp] at h
    simp [Program.forEach, h.1, ih h.2]

@[simp] theorem IssuesGiven.mapEach {xs : List β} {body : β → Program ι ρ μ ε α}
    (h : ∀ x ∈ xs, IssuesGiven allowed good (body x)) :
    IssuesGiven allowed good (Program.mapEach xs body) := by
  induction xs with
  | nil => simp [Program.mapEach]
  | cons x xs ih =>
    rw [List.forall_mem_cons] at h
    simp [Program.mapEach, h.1, ih h.2]

@[simp] theorem issues_attempt :
    IssuesGiven allowed good p.attempt ↔ IssuesGiven allowed good p := by
  constructor
  · intro h exchanges outcome hallowed hrun
    exact h _ _ hallowed (runs_attempt_iff.mpr (.inr (.inr ⟨hrun.stop, rfl⟩)))
  · intro h exchanges outcome hallowed hrun
    rcases runs_attempt_iff.mp hrun with ⟨_, h', -⟩ | ⟨_, h', -⟩ | ⟨h', -⟩ <;>
      exact h _ _ hallowed h'

@[simp] theorem issues_ofExcept {ending : Except ε α} :
    IssuesGiven allowed good (Program.ofExcept ending : Program ι ρ μ ε α) := by
  cases ending <;> simp [Program.ofExcept]

@[simp] theorem IssuesGiven.tryFinally {cleanup : Program ι ρ μ ε Unit} (hp : IssuesGiven allowed good p)
    (hcleanup : IssuesGiven allowed good cleanup) :
    IssuesGiven allowed good (p.tryFinally cleanup) := by
  simp [Program.tryFinally, hp, hcleanup]

theorem IssuesGiven.of_bind {value : α} (h : IssuesGiven allowed good (p >>= f))
    (hvalue : CanReturn allowed p value) : IssuesGiven allowed good (f value) :=
  (issues_bind.mp h).2 value hvalue

theorem IssuesGiven.of_runs {exchanges : List (ι × ρ)} {outcome : Outcome ε α} (h : Issues good p)
    (hrun : Runs p exchanges outcome) : ∀ x ∈ exchanges, good x.1 :=
  h exchanges outcome allAllowed_true hrun

theorem IssuesGiven.mono {good' : ι → Prop} (h : IssuesGiven allowed good p)
    (himp : ∀ i, good i → good' i) : IssuesGiven allowed good' p :=
  fun exchanges outcome hallowed hrun x hx => himp _ (h exchanges outcome hallowed hrun x hx)

/-- A run of `p >>= f` with a request that `p` does not issue got past `p`. -/
theorem IssuesGiven.runs_past {f : α → Program ι ρ μ ε β} (h : IssuesGiven allowed good p)
    {exchanges : List (ι × ρ)} {outcome : Outcome ε β} (hallowed : AllAllowed allowed exchanges)
    (hrun : Runs (p >>= f) exchanges outcome) (hissued : ∃ x ∈ exchanges, ¬ good x.1) :
    ∃ first value second, exchanges = first ++ second ∧ Runs p first (.returned value) ∧
      Runs (f value) second outcome ∧ ∀ x ∈ first, good x.1 := by
  obtain ⟨x, hx, hbad⟩ := hissued
  rcases runs_bind_iff.mp hrun with
    ⟨first, value, second, rfl, hfirst, hsecond⟩ | ⟨error, hraised, rfl⟩ | ⟨hstopped, rfl⟩
  · exact ⟨first, value, second, rfl, hfirst, hsecond,
      h _ _ (allAllowed_append.mp hallowed).1 hfirst⟩
  · exact absurd (h _ _ hallowed hraised x hx) hbad
  · exact absurd (h _ _ hallowed hstopped x hx) hbad

/-- An invariant that every request of `p` keeps is kept by every run of `p`. -/
theorem IssuesGiven.preserves {M : Machine ι ρ σ} {P : σ → Prop} (h : IssuesGiven allowed good p)
    (hstep : ∀ i r s s', good i → P s → M s i r s' → P s')
    {exchanges : List (ι × ρ)} {outcome : Outcome ε α} {s s' : σ}
    (hallowed : AllAllowed allowed exchanges) (hrun : Runs p exchanges outcome)
    (hreplay : Replays M s exchanges s') (hs : P s) : P s' :=
  hreplay.preserves (fun x hx _ _ => hstep _ _ _ _ (h _ _ hallowed hrun x hx)) hs

end Issues

end Interaction
