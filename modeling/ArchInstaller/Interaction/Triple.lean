import ArchInstaller.Interaction.Issues

/-! # Programs on a machine

`Keeps M s p always post`: whatever run of `p` the machine `M` follows from state `s`, every state
it reaches has `always`, and where `p` returns, the value and the state have `post`. `Reaches`
says that there is a run that returns with `post`. -/

namespace Interaction

variable {ι ρ μ ε α β σ : Type}

def Keeps (M : Machine ι ρ σ) (s : σ) (p : Program ι ρ μ ε α) (always : σ → Prop)
    (post : α → σ → Prop) : Prop :=
  ∀ exchanges outcome s', Runs p exchanges outcome → Replays M s exchanges s' →
    always s' ∧ ∀ value, outcome = .returned value → post value s'

def Reaches (M : Machine ι ρ σ) (s : σ) (p : Program ι ρ μ ε α) (post : α → σ → Prop) : Prop :=
  ∃ exchanges value s', Runs p exchanges (.returned value) ∧ Replays M s exchanges s' ∧
    post value s'

section Keeps

variable {M : Machine ι ρ σ} {s : σ} {p : Program ι ρ μ ε α} {f : α → Program ι ρ μ ε β}
  {always : σ → Prop} {post : α → σ → Prop}

theorem keeps_ret {value : α} (hs : always s) (h : post value s) :
    Keeps M s (.ret value : Program ι ρ μ ε α) always post := by
  intro exchanges outcome s' hrun hreplay
  obtain ⟨rfl, houtcome⟩ := runs_ret_iff.mp hrun
  obtain rfl := replays_nil_iff.mp hreplay
  refine ⟨hs, fun value' hvalue => ?_⟩
  obtain rfl | rfl := houtcome
  · cases hvalue
    exact h
  · cases hvalue

theorem keeps_raise {error : ε} (hs : always s) :
    Keeps M s (.raise error : Program ι ρ μ ε α) always post := by
  intro exchanges outcome s' hrun hreplay
  obtain ⟨rfl, houtcome⟩ := runs_raise_iff.mp hrun
  obtain rfl := replays_nil_iff.mp hreplay
  refine ⟨hs, fun value hvalue => ?_⟩
  obtain rfl | rfl := houtcome <;> cases hvalue

@[simp] theorem keeps_log {message : μ} :
    Keeps M s (.log message p) always post ↔ Keeps M s p always post := by
  simp only [Keeps, runs_log_iff]

theorem Keeps.mono {post' : α → σ → Prop} (h : Keeps M s p always post)
    (himp : ∀ value s', always s' → post value s' → post' value s') :
    Keeps M s p always post' := by
  intro exchanges outcome s' hrun hreplay
  obtain ⟨halways, hpost⟩ := h exchanges outcome s' hrun hreplay
  exact ⟨halways, fun value hvalue => himp value s' halways (hpost value hvalue)⟩

/-- What is known of every value that a program can return holds of the one it returns here. -/
theorem Keeps.canReturn {Q : α → Prop} (h : Keeps M s p always post)
    (hQ : ∀ value, CanReturn (fun _ _ => True) p value → Q value) :
    Keeps M s p always fun value s' => post value s' ∧ Q value := by
  intro exchanges outcome s' hrun hreplay
  obtain ⟨halways, hpost⟩ := h exchanges outcome s' hrun hreplay
  refine ⟨halways, ?_⟩
  rintro value rfl
  exact ⟨hpost value rfl, hQ value ⟨exchanges, allAllowed_true, hrun⟩⟩

theorem Keeps.bind {post' : β → σ → Prop} (hp : Keeps M s p always post)
    (hf : ∀ value s', always s' → post value s' → Keeps M s' (f value) always post') :
    Keeps M s (p >>= f) always post' := by
  intro exchanges outcome s' hrun hreplay
  rcases runs_bind_iff.mp hrun with
    ⟨first, value, second, rfl, hfirst, hsecond⟩ | ⟨error, hraised, rfl⟩ | ⟨hstopped, rfl⟩
  · obtain ⟨mid, hreplayFirst, hreplaySecond⟩ := replays_append_iff.mp hreplay
    obtain ⟨halways, hmid⟩ := hp first _ mid hfirst hreplayFirst
    exact hf value mid halways (hmid value rfl) second outcome s' hsecond hreplaySecond
  · exact ⟨(hp exchanges _ s' hraised hreplay).1, by rintro _ ⟨⟩⟩
  · exact ⟨(hp exchanges _ s' hstopped hreplay).1, by rintro _ ⟨⟩⟩

theorem Keeps.onlyIf {condition : Bool} {p : Program ι ρ μ ε Unit} {post : Unit → σ → Prop}
    (hp : condition = true → Keeps M s p always post) (hs : always s)
    (hskip : condition = false → post () s) :
    Keeps M s (Program.onlyIf condition p) always post := by
  cases condition with
  | false => exact keeps_ret hs (hskip rfl)
  | true => exact hp rfl

/-- A loop: `post` holds of the elements done so far. -/
theorem Keeps.forEach {xs : List β} {body : β → Program ι ρ μ ε Unit} {I : List β → σ → Prop}
    (hs : always s) (hI : I [] s)
    (hbody : ∀ done x s, x ∈ xs → always s → I done s →
      Keeps M s (body x) always fun _ s' => I (done ++ [x]) s') :
    Keeps M s (Program.forEach xs body) always fun _ s' => I xs s' := by
  suffices h : ∀ left done s, (∀ x ∈ left, x ∈ xs) → always s → I done s →
      Keeps M s (Program.forEach left body) always fun _ s' => I (done ++ left) s' by
    exact h xs [] s (fun _ hx => hx) hs hI
  intro left
  induction left with
  | nil =>
    intro done s _ hs hI
    rw [List.append_nil]
    exact keeps_ret hs hI
  | cons x left ih =>
    intro done s hleft hs hI
    rw [List.forall_mem_cons] at hleft
    rw [Program.forEach]
    refine (hbody done x s hleft.1 hs hI).bind fun _ mid hmid hImid => ?_
    have hrest := ih (done ++ [x]) mid hleft.2 hmid hImid
    rwa [List.append_assoc, List.singleton_append] at hrest

theorem Keeps.attempt (h : Keeps M s p always post) :
    Keeps M s p.attempt always fun ending s' => ∀ value, ending = .ok value → post value s' := by
  intro exchanges outcome s' hrun hreplay
  rcases runs_attempt_iff.mp hrun with ⟨value, hp, rfl⟩ | ⟨error, hp, rfl⟩ | ⟨hp, rfl⟩
  · obtain ⟨halways, hpost⟩ := h exchanges _ s' hp hreplay
    refine ⟨halways, ?_⟩
    rintro _ ⟨⟩ _ ⟨⟩
    exact hpost value rfl
  · refine ⟨(h exchanges _ s' hp hreplay).1, ?_⟩
    rintro _ ⟨⟩ _ ⟨⟩
  · exact ⟨(h exchanges _ s' hp hreplay).1, by rintro _ ⟨⟩⟩

/-- A cleanup that keeps every `post` of a value. -/
theorem Keeps.tryFinally {cleanup : Program ι ρ μ ε Unit} (hp : Keeps M s p always post)
    (hcleanup : ∀ (Q : σ → Prop) (s : σ), (Q = (fun _ => True) ∨ ∃ value, Q = post value) →
      always s → Q s → Keeps M s cleanup always fun _ s' => Q s') :
    Keeps M s (p.tryFinally cleanup) always post := by
  refine hp.attempt.bind fun ending s' hs' hpost => ?_
  cases ending with
  | ok value =>
    refine (hcleanup (post value) s' (.inr ⟨value, rfl⟩) hs' (hpost value rfl)).bind
      fun _ s'' hs'' hpost' => ?_
    exact keeps_ret hs'' hpost'
  | error error =>
    refine (hcleanup (fun _ => True) s' (.inl rfl) hs' trivial).bind fun _ s'' hs'' _ => ?_
    exact keeps_raise hs''

/-- An invariant that every request of a program keeps. -/
theorem IssuesGiven.keeps {good : ι → Prop} (h : Issues good p) {I : σ → Prop}
    (hstep : ∀ i r s s', good i → I s → M s i r s' → I s') (hs : I s)
    (halways : ∀ s, I s → always s) : Keeps M s p always fun _ s' => I s' := by
  intro exchanges outcome s' hrun hreplay
  have hI := h.preserves hstep allAllowed_true hrun hreplay hs
  exact ⟨halways s' hI, fun _ _ => hI⟩

end Keeps

section Reaches

variable {M : Machine ι ρ σ} {s : σ} {p : Program ι ρ μ ε α} {f : α → Program ι ρ μ ε β}
  {post : α → σ → Prop}

theorem reaches_ret {value : α} (h : post value s) :
    Reaches M s (.ret value : Program ι ρ μ ε α) post :=
  ⟨[], value, s, .ret, .nil, h⟩

@[simp] theorem reaches_log {message : μ} :
    Reaches M s (.log message p) post ↔ Reaches M s p post := by
  simp only [Reaches, runs_log_iff]

theorem Reaches.mono {post' : α → σ → Prop} (h : Reaches M s p post)
    (himp : ∀ value s', post value s' → post' value s') : Reaches M s p post' := by
  obtain ⟨exchanges, value, s', hrun, hreplay, hpost⟩ := h
  exact ⟨exchanges, value, s', hrun, hreplay, himp value s' hpost⟩

theorem Reaches.bind {post' : β → σ → Prop} (hp : Reaches M s p post)
    (hf : ∀ value s', post value s' → Reaches M s' (f value) post') :
    Reaches M s (p >>= f) post' := by
  obtain ⟨first, value, mid, hfirst, hreplayFirst, hmid⟩ := hp
  obtain ⟨second, value', s', hsecond, hreplaySecond, hpost⟩ := hf value mid hmid
  exact ⟨first ++ second, value', s',
    runs_bind_returned_iff.mpr ⟨first, value, second, rfl, hfirst, hsecond⟩,
    replays_append_iff.mpr ⟨mid, hreplayFirst, hreplaySecond⟩, hpost⟩

theorem Reaches.onlyIf {condition : Bool} {p : Program ι ρ μ ε Unit} {post : Unit → σ → Prop}
    (hp : condition = true → Reaches M s p post) (hskip : condition = false → post () s) :
    Reaches M s (Program.onlyIf condition p) post := by
  cases condition with
  | false => exact reaches_ret (hskip rfl)
  | true => exact hp rfl

theorem Reaches.forEach {xs : List β} {body : β → Program ι ρ μ ε Unit} {I : σ → Prop} (hI : I s)
    (hbody : ∀ x ∈ xs, ∀ s, I s → Reaches M s (body x) fun _ s' => I s') :
    Reaches M s (Program.forEach xs body) fun _ s' => I s' := by
  induction xs generalizing s with
  | nil => exact reaches_ret hI
  | cons x xs ih =>
    rw [List.forall_mem_cons] at hbody
    exact (hbody.1 s hI).bind fun _ s' hI' => ih hI' hbody.2

/-- A loop, where what has been reached depends on the elements done so far. -/
theorem Reaches.forEach_done {xs : List β} {body : β → Program ι ρ μ ε Unit} {I : List β → σ → Prop}
    (hI : I [] s) (hbody : ∀ done x s, x ∈ xs → I done s →
      Reaches M s (body x) fun _ s' => I (done ++ [x]) s') :
    Reaches M s (Program.forEach xs body) fun _ s' => I xs s' := by
  suffices h : ∀ left done s, (∀ x ∈ left, x ∈ xs) → I done s →
      Reaches M s (Program.forEach left body) fun _ s' => I (done ++ left) s' by
    exact h xs [] s (fun _ hx => hx) hI
  intro left
  induction left with
  | nil =>
    intro done s _ hI
    rw [List.append_nil]
    exact reaches_ret hI
  | cons x left ih =>
    intro done s hleft hI
    rw [List.forall_mem_cons] at hleft
    refine (hbody done x s hleft.1 hI).bind fun _ mid hmid => ?_
    have hrest := ih (done ++ [x]) mid hleft.2 hmid
    rwa [List.append_assoc, List.singleton_append] at hrest

/-- What is kept by every run holds at the end of the one that is reached. -/
theorem Reaches.and_keeps {always : σ → Prop} {post' : α → σ → Prop} (h : Reaches M s p post)
    (hkeeps : Keeps M s p always post') : Reaches M s p fun value s' => post value s' ∧
      post' value s' := by
  obtain ⟨exchanges, value, s', hrun, hreplay, hpost⟩ := h
  exact ⟨exchanges, value, s', hrun, hreplay, hpost,
    (hkeeps exchanges _ s' hrun hreplay).2 value rfl⟩

theorem Reaches.tryFinally {cleanup : Program ι ρ μ ε Unit} (hp : Reaches M s p post)
    (hcleanup : ∀ value s, post value s → Reaches M s cleanup fun _ s' => post value s') :
    Reaches M s (p.tryFinally cleanup) post := by
  obtain ⟨exchanges, value, s', hrun, hreplay, hpost⟩ := hp
  have hattempt : Reaches M s p.attempt fun ending s' =>
      ∃ value, ending = .ok value ∧ post value s' :=
    ⟨exchanges, .ok value, s', runs_attempt_iff.mpr (.inl ⟨value, hrun, rfl⟩), hreplay, value, rfl,
      hpost⟩
  refine hattempt.bind fun ending s' hending => ?_
  obtain ⟨value, rfl, hpost⟩ := hending
  exact (hcleanup value s' hpost).bind fun _ _ hpost' => reaches_ret hpost'

/-- With answers that leave the machine where it is, a program reaches what it can return. -/
theorem CanReturn.reaches {allowed : ι → ρ → Prop} {good : ι → Prop} {value : α}
    (h : CanReturn allowed p value) (hissues : Issues good p)
    (hstep : ∀ i r, good i → allowed i r → M s i r s) :
    Reaches M s p fun value' s' => value' = value ∧ s' = s := by
  obtain ⟨exchanges, hallowed, hrun⟩ := h
  refine ⟨exchanges, value, s, hrun, ?_, rfl, rfl⟩
  have hgood := hissues.of_runs hrun
  clear hrun hissues
  induction exchanges with
  | nil => exact .nil
  | cons x exchanges ih =>
    rw [allAllowed_cons] at hallowed
    rw [List.forall_mem_cons] at hgood
    exact .cons (hstep x.1 x.2 hgood.1 hallowed.1) (ih hallowed.2 hgood.2)

end Reaches

end Interaction
