import ArchInstaller.Interaction.Machine

/-! # Programs that run at the same time

Any number of programs share a machine: each does its next request whenever it likes, and between
the requests other things happen to the state. A history lists what was done and what happened, in
order; `exchangesOf` is the part of one program in it. -/

namespace Interaction

variable {τ ι ρ η μ ε α σ : Type}

/-- What comes next in a history: a program does a request, or something happens. -/
inductive Occurrence (τ ι ρ η : Type) where
  | did (who : τ) (invocation : ι) (answer : ρ)
  | happened (event : η)

abbrev Interleaving (τ ι ρ η : Type) := List (Occurrence τ ι ρ η)

/-- `E event s s'`: in state `s` the event can happen, and leads to `s'`. -/
inductive Proceeds (M : Machine ι ρ σ) (E : η → σ → σ → Prop) : σ → Interleaving τ ι ρ η → σ → Prop
  | nil {s : σ} : Proceeds M E s [] s
  | did {s mid s' : σ} {who : τ} {invocation : ι} {answer : ρ} {history : Interleaving τ ι ρ η} :
    M s invocation answer mid → Proceeds M E mid history s' →
    Proceeds M E s (.did who invocation answer :: history) s'
  | happened {s mid s' : σ} {event : η} {history : Interleaving τ ι ρ η} :
    E event s mid → Proceeds M E mid history s' → Proceeds M E s (.happened event :: history) s'

section Proceeds

variable {M : Machine ι ρ σ} {E : η → σ → σ → Prop} {s s' : σ} {history : Interleaving τ ι ρ η}

/-- What one occurrence does to the state. -/
def Occurrence.Step (M : Machine ι ρ σ) (E : η → σ → σ → Prop) (s : σ) :
    Occurrence τ ι ρ η → σ → Prop
  | .did _ invocation answer, s' => M s invocation answer s'
  | .happened event, s' => E event s s'

@[simp] theorem proceeds_nil_iff : Proceeds M E s ([] : Interleaving τ ι ρ η) s' ↔ s' = s := by
  constructor
  · rintro ⟨⟩
    rfl
  · rintro rfl
    exact .nil

theorem proceeds_cons_iff {o : Occurrence τ ι ρ η} :
    Proceeds M E s (o :: history) s' ↔ ∃ mid, o.Step M E s mid ∧ Proceeds M E mid history s' := by
  constructor
  · intro h
    cases h with
    | did hstep hrest => exact ⟨_, hstep, hrest⟩
    | happened hstep hrest => exact ⟨_, hstep, hrest⟩
  · rintro ⟨mid, hstep, hrest⟩
    cases o with
    | did => exact .did hstep hrest
    | happened => exact .happened hstep hrest

theorem proceeds_append_iff {first second : Interleaving τ ι ρ η} :
    Proceeds M E s (first ++ second) s' ↔
      ∃ mid, Proceeds M E s first mid ∧ Proceeds M E mid second s' := by
  induction first generalizing s with
  | nil => simp
  | cons o first ih => simp only [List.cons_append, proceeds_cons_iff, ih]; grind

/-- What every occurrence of a history keeps, the history keeps. -/
theorem Proceeds.preserves {P : σ → Prop} (h : Proceeds M E s history s')
    (hstep : ∀ o ∈ history, ∀ s s', P s → o.Step M E s s' → P s') (hs : P s) : P s' := by
  induction history generalizing s with
  | nil =>
    obtain rfl := proceeds_nil_iff.mp h
    exact hs
  | cons o history ih =>
    obtain ⟨mid, hfirst, hrest⟩ := proceeds_cons_iff.mp h
    rw [List.forall_mem_cons] at hstep
    exact ih hrest hstep.2 (hstep.1 s mid hs hfirst)

/-- A history up to one of its occurrences, and from it on. -/
theorem Proceeds.split {o : Occurrence τ ι ρ η} {before after : Interleaving τ ι ρ η}
    (h : Proceeds M E s (before ++ o :: after) s') : ∃ here next, Proceeds M E s before here ∧
      o.Step M E here next ∧ Proceeds M E next after s' := by
  obtain ⟨here, hbefore, hrest⟩ := proceeds_append_iff.mp h
  obtain ⟨next, hstep, hafter⟩ := proceeds_cons_iff.mp hrest
  exact ⟨here, next, hbefore, hstep, hafter⟩

/-- A program alone on the machine. -/
theorem Replays.proceeds {who : τ} {exchanges : List (ι × ρ)} (h : Replays M s exchanges s') :
    Proceeds M E s (exchanges.map fun x => Occurrence.did who x.1 x.2) s' := by
  induction h with
  | nil => exact .nil
  | cons hstep _ ih => exact .did hstep ih

end Proceeds

/-- The last occurrence of a kind. -/
theorem exists_last {P : Occurrence τ ι ρ η → Prop} {history : Interleaving τ ι ρ η}
    (h : ∃ o ∈ history, P o) : ∃ before o after, history = before ++ o :: after ∧ P o ∧
      ∀ o' ∈ after, ¬ P o' := by
  induction history with
  | nil => simp at h
  | cons o history ih =>
    by_cases hrest : ∃ o ∈ history, P o
    · obtain ⟨before, o', after, rfl, ho', hafter⟩ := ih hrest
      exact ⟨o :: before, o', after, rfl, ho', hafter⟩
    · have hlater : ∀ o' ∈ history, ¬ P o' := fun o' hmem ho' => hrest ⟨o', hmem, ho'⟩
      have ho : P o := by
        obtain ⟨o', hmem, ho'⟩ := h
        rcases List.mem_cons.mp hmem with rfl | hmem
        · exact ho'
        · exact absurd ho' (hlater o' hmem)
      exact ⟨[], o, history, rfl, ho, hlater⟩

/-! ## The part of one program -/

section Part

variable [DecidableEq τ] {who : τ}

/-- The exchange of an occurrence, if this program did it. -/
def Occurrence.exchange? (who : τ) : Occurrence τ ι ρ η → Option (ι × ρ)
  | .did who' invocation answer => if who' = who then some (invocation, answer) else none
  | .happened _ => none

def exchangesOf (who : τ) (history : Interleaving τ ι ρ η) : List (ι × ρ) :=
  history.filterMap (Occurrence.exchange? who)

theorem Occurrence.exchange?_eq_some {o : Occurrence τ ι ρ η} {x : ι × ρ} :
    o.exchange? who = some x ↔ o = .did who x.1 x.2 := by
  cases o with
  | did who' invocation answer => simp only [exchange?]; grind
  | happened event => simp [exchange?]

@[simp] theorem exchangesOf_append {first second : Interleaving τ ι ρ η} :
    exchangesOf who (first ++ second) = exchangesOf who first ++ exchangesOf who second :=
  List.filterMap_append

theorem exchangesOf_cons {o : Occurrence τ ι ρ η} {history : Interleaving τ ι ρ η} :
    exchangesOf who (o :: history) = (o.exchange? who).toList ++ exchangesOf who history := by
  rw [exchangesOf, List.filterMap_cons]
  split <;> simp [*, exchangesOf]

theorem exchangesOf_did {before after : Interleaving τ ι ρ η} {invocation : ι} {answer : ρ} :
    exchangesOf who (before ++ .did who invocation answer :: after) =
      exchangesOf who before ++ (invocation, answer) :: exchangesOf who after := by
  rw [exchangesOf_append, exchangesOf_cons, Occurrence.exchange?, if_pos rfl]
  rfl

theorem mem_exchangesOf {history : Interleaving τ ι ρ η} {x : ι × ρ} :
    x ∈ exchangesOf who history ↔ .did who x.1 x.2 ∈ history := by
  simp only [exchangesOf, List.mem_filterMap, Occurrence.exchange?_eq_some, exists_eq_right]

/-- What a program did in a row is in the history in that order. -/
theorem exists_append_of_exchangesOf {history : Interleaving τ ι ρ η} {first second : List (ι × ρ)}
    (h : exchangesOf who history = first ++ second) : ∃ before after, history = before ++ after ∧
      exchangesOf who before = first ∧ exchangesOf who after = second := by
  obtain ⟨before, after, rfl, hbefore, hafter⟩ := List.filterMap_eq_append_iff.mp h
  exact ⟨before, after, rfl, hbefore, hafter⟩

theorem exists_did_of_exchangesOf {history : Interleaving τ ι ρ η} {first second : List (ι × ρ)}
    {x : ι × ρ} (h : exchangesOf who history = first ++ x :: second) : ∃ before after,
      history = before ++ .did who x.1 x.2 :: after ∧ exchangesOf who before = first ∧
        exchangesOf who after = second := by
  obtain ⟨before, rest, rfl, hbefore, hrest⟩ := exists_append_of_exchangesOf h
  obtain ⟨between, o, after, rfl, hbetween, ho, hafter⟩ := List.filterMap_eq_cons_iff.mp hrest
  obtain rfl := Occurrence.exchange?_eq_some.mp ho
  refine ⟨before ++ between, after, by simp, ?_, hafter⟩
  rw [exchangesOf_append, hbefore, exchangesOf, List.filterMap_eq_nil_iff.mpr hbetween,
    List.append_nil]

@[simp] theorem exchangesOf_alone {exchanges : List (ι × ρ)} :
    exchangesOf who (exchanges.map fun x => (.did who x.1 x.2 : Occurrence τ ι ρ η)) =
      exchanges := by
  induction exchanges with
  | nil => rfl
  | cons x exchanges ih =>
    rw [List.map_cons, exchangesOf_cons, ih]
    simp [Occurrence.exchange?]

theorem exchangesOf_other {who' : τ} (h : who' ≠ who) {exchanges : List (ι × ρ)} :
    exchangesOf who (exchanges.map fun x => (.did who' x.1 x.2 : Occurrence τ ι ρ η)) = [] := by
  rw [exchangesOf, List.filterMap_map, List.filterMap_eq_nil_iff]
  exact fun x _ => if_neg h

/-- A program that is done with requests of a kind does the rest of its requests after the last of
that kind in the history. -/
theorem suffix_of_last {P : ι × ρ → Prop} {before after : Interleaving τ ι ρ η} {x : ι × ρ}
    {first second : List (ι × ρ)}
    (h : exchangesOf who (before ++ .did who x.1 x.2 :: after) = first ++ second) (hx : P x)
    (hsecond : ∀ y ∈ second, ¬ P y) : second <:+ exchangesOf who after := by
  have hsplit : exchangesOf who before ++ x :: exchangesOf who after = first ++ second := by
    rw [← h, exchangesOf_did]
  rcases List.append_eq_append_iff.mp hsplit with ⟨middle, rfl, hmiddle⟩ | ⟨middle, -, rfl⟩
  · cases middle with
    | nil => exact absurd hx (hsecond x (by rw [← List.nil_append second, ← hmiddle]; simp))
    | cons y middle =>
      rw [List.cons_append, List.cons.injEq] at hmiddle
      exact ⟨middle, hmiddle.2.symm⟩
  · exact absurd hx (hsecond x (by simp))

end Part

end Interaction
