import ArchInstaller.Interaction.Ending
import ArchInstaller.Interaction.Issues
import ArchInstaller.Interaction.Returning
import ArchInstaller.Interaction.Triple

/-! # Bash scripts under `set -e`

A script issues commands and looks at their exit status and at what they print. A command that is
not the condition of an `if` or the left side of a `||` ends the script when it fails. -/

namespace Shell

open Interaction

structure Answer where
  status : Nat
  output : String
  deriving DecidableEq

def Answer.success (answer : Answer) : Bool := answer.status == 0

/-- A command that went well and printed nothing. -/
def Answer.ok : Answer := ⟨0, ""⟩

def Answer.failed : Answer := ⟨1, ""⟩

@[simp] theorem Answer.success_ok : Answer.ok.success = true := rfl

@[simp] theorem Answer.success_failed : Answer.failed.success = false := rfl

/-- The exit status of a script that ends early. -/
structure Exit where
  status : Nat
  deriving DecidableEq

/-- A script over commands `γ`. -/
abbrev Script (γ α : Type) := Program γ Answer String Exit α

variable {γ α : Type}

def ask (command : γ) : Script γ Answer := .request command .ret

/-- A command as a condition. -/
def succeeds (command : γ) : Script γ Bool := Answer.success <$> ask command

/-- A command in `$(…)` of an assignment. -/
def output (command : γ) : Script γ String := do
  let answer ← ask command
  if answer.success then pure answer.output else .raise ⟨answer.status⟩

/-- A command of its own. -/
def must (command : γ) : Script γ Unit := do
  let _ ← output command

def echo (message : String) : Script γ Unit := .log message (.ret ())

def exit (status : Nat) : Script γ α := .raise ⟨status⟩

/-! ## Rules -/

variable {σ : Type} {M : Machine γ Answer σ} {s : σ} {command : γ}

section Issues

variable {allowed : γ → Answer → Prop} {good : γ → Prop}

@[simp] theorem issues_ask : IssuesGiven allowed good (ask command) ↔
    ∀ answer, allowed command answer → good command := by
  constructor
  · intro h answer hallowed
    have hmem := h [(command, answer)] .stopped (by simpa using hallowed) (.request .stopped)
    simpa using hmem
  · intro h exchanges outcome hallowed hrun
    rcases runs_request_iff.mp hrun with ⟨rfl, -⟩ | ⟨answer, tail, rfl, hret⟩
    · simp
    · obtain ⟨rfl, -⟩ := runs_ret_iff.mp hret
      simpa using h answer (allAllowed_cons.mp hallowed).1

@[simp] theorem issues_succeeds : IssuesGiven allowed good (succeeds command) ↔
    ∀ answer, allowed command answer → good command := by
  rw [succeeds, issues_map, issues_ask]

@[simp] theorem issues_output : IssuesGiven allowed good (output command) ↔
    ∀ answer, allowed command answer → good command := by
  rw [output, issues_bind, issues_ask, and_iff_left]
  intro answer _
  split
  · exact issues_ret
  · exact issues_raise

@[simp] theorem issues_must : IssuesGiven allowed good (must command) ↔
    ∀ answer, allowed command answer → good command := by
  rw [must, issues_bind, issues_output, and_iff_left fun _ _ => issues_pure]

@[simp] theorem issues_echo {message : String} :
    IssuesGiven allowed good (echo message : Script γ Unit) :=
  issues_log.mpr issues_ret

@[simp] theorem issues_exit {status : Nat} :
    IssuesGiven allowed good (exit status : Script γ α) :=
  issues_raise

end Issues

section Runs

theorem runs_ask {answer : Answer} : Runs (ask command) [(command, answer)] (.returned answer) :=
  .request .ret

theorem runs_succeeds_ok : Runs (succeeds command) [(command, .ok)] (.returned true) :=
  .request .ret

theorem runs_succeeds_failed : Runs (succeeds command) [(command, .failed)] (.returned false) :=
  .request .ret

theorem runs_must_ok : Runs (must command) [(command, .ok)] (.returned ()) := .request .ret

theorem runs_echo {message : String} : Runs (echo message : Script γ Unit) [] (.returned ()) :=
  .log .ret

end Runs

section Returns

theorem returns_ask {Q : List (γ × Answer) → Answer → σ → Prop}
    (h : ∀ answer s', M s command answer s' → Q [(command, answer)] answer s') :
    Returns M s (ask command) Q :=
  returns_request fun answer s' hstep => returns_ret (h answer s' hstep)

theorem returns_succeeds {Q : List (γ × Answer) → Bool → σ → Prop}
    (h : ∀ answer s', M s command answer s' → Q [(command, answer)] answer.success s') :
    Returns M s (succeeds command) Q := by
  rw [succeeds, map_eq_pure_bind]
  refine (returns_ask (Q := fun exchanges answer s' => exchanges = [(command, answer)] ∧
    M s command answer s') fun answer s' hstep => ⟨rfl, hstep⟩).bind ?_
  rintro _ answer s' ⟨rfl, hstep⟩
  exact returns_ret (by simpa using h answer s' hstep)

theorem returns_output {Q : List (γ × Answer) → String → σ → Prop}
    (h : ∀ answer s', M s command answer s' → answer.success →
      Q [(command, answer)] answer.output s') :
    Returns M s (output command) Q := by
  refine (returns_ask (Q := fun exchanges answer s' => exchanges = [(command, answer)] ∧
    M s command answer s') fun answer s' hstep => ⟨rfl, hstep⟩).bind ?_
  rintro _ answer s' ⟨rfl, hstep⟩
  split
  · next hsuccess => exact returns_ret (by simpa using h answer s' hstep hsuccess)
  · exact returns_raise

theorem returns_must {Q : List (γ × Answer) → Unit → σ → Prop}
    (h : ∀ answer s', M s command answer s' → answer.success → Q [(command, answer)] () s') :
    Returns M s (must command) Q := by
  refine (returns_output (Q := fun exchanges _ s' => Q exchanges () s') h).bind ?_
  intro first _ s' hpost
  exact returns_ret (by simpa using hpost)

@[simp] theorem returns_echo_bind {message : String} {next : Unit → Script γ α}
    {Q : List (γ × Answer) → α → σ → Prop} :
    Returns M s (echo message >>= next) Q ↔ Returns M s (next ()) Q := by
  simp [echo]

end Returns

section Ends

theorem ends_ask {Q : List (γ × Answer) → Outcome Exit Answer → σ → Prop}
    (h : ∀ answer s', M s command answer s' → Q [(command, answer)] (.returned answer) s') :
    Ends M s (ask command) Q := by
  intro exchanges outcome s' hrun hreplay hended
  rcases runs_request_iff.mp hrun with ⟨-, rfl⟩ | ⟨answer, tail, rfl, hret⟩
  · exact absurd rfl hended
  · obtain ⟨rfl, rfl | rfl⟩ := runs_ret_iff.mp hret
    · obtain ⟨mid, hstep, hnil⟩ := replays_cons_iff.mp hreplay
      obtain rfl := replays_nil_iff.mp hnil
      exact h answer _ hstep
    · exact absurd rfl hended

theorem ends_succeeds {Q : List (γ × Answer) → Outcome Exit Bool → σ → Prop}
    (h : ∀ answer s', M s command answer s' → Q [(command, answer)] (.returned answer.success) s') :
    Ends M s (succeeds command) Q := by
  rw [succeeds, map_eq_pure_bind]
  refine (ends_ask (Q := fun exchanges outcome s' => ∃ answer, exchanges = [(command, answer)] ∧
    outcome = .returned answer ∧ M s command answer s') fun answer s' hstep =>
      ⟨answer, rfl, rfl, hstep⟩).bind ?_ ?_
  · rintro _ _ _ ⟨_, -, houtcome, -⟩
    cases houtcome
  · rintro _ answer s' ⟨_, rfl, houtcome, hstep⟩
    cases houtcome
    exact ends_ret (h answer s' hstep)

end Ends

section Reaches

theorem reaches_ask {Q : Answer → σ → Prop} (answer : Answer) (s' : σ)
    (hstep : M s command answer s') (hpost : Q answer s') : Reaches M s (ask command) Q :=
  ⟨[(command, answer)], answer, s', .request .ret, .cons hstep .nil, hpost⟩

theorem reaches_succeeds {Q : Bool → σ → Prop} (answer : Answer) (s' : σ)
    (hstep : M s command answer s') (hpost : Q answer.success s') :
    Reaches M s (succeeds command) Q := by
  rw [succeeds, map_eq_pure_bind]
  exact (reaches_ask (Q := fun answer' s'' => answer' = answer ∧ s'' = s') answer s' hstep
    ⟨rfl, rfl⟩).bind fun _ _ h => reaches_ret (by rw [h.1, h.2]; exact hpost)

theorem reaches_output {Q : String → σ → Prop} (answer : Answer) (s' : σ)
    (hstep : M s command answer s') (hsuccess : answer.success) (hpost : Q answer.output s') :
    Reaches M s (output command) Q := by
  refine (reaches_ask (Q := fun answer' s'' => answer' = answer ∧ s'' = s') answer s' hstep
    ⟨rfl, rfl⟩).bind ?_
  rintro _ _ ⟨rfl, rfl⟩
  rw [if_pos hsuccess]
  exact reaches_ret hpost

theorem reaches_must {Q : Unit → σ → Prop} (answer : Answer) (s' : σ)
    (hstep : M s command answer s') (hsuccess : answer.success) (hpost : Q () s') :
    Reaches M s (must command) Q :=
  (reaches_output (Q := fun _ s'' => Q () s'') answer s' hstep hsuccess hpost).bind
    fun _ _ h => reaches_ret h

@[simp] theorem reaches_echo_bind {message : String} {next : Unit → Script γ α}
    {Q : α → σ → Prop} :
    Reaches M s (echo message >>= next) Q ↔ Reaches M s (next ()) Q := by
  simp [echo]

end Reaches

end Shell
