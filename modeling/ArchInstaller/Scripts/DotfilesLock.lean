import Mathlib.Logic.Function.Basic
import Mathlib.Logic.Relation

/-! # The lock of `dotfiles-sync.sh`

`acquire_lock`, command by command, in any number of processes that push and pull. The lock file is
only ever written by the script, so all that matters of its text is the process that it names. -/

namespace ArchInstaller.DotfilesSync.Lock

/-- What a process of the script does next. -/
inductive Phase where
  /-- `[ -f "$LOCK_FILE" ]`. -/
  | test
  /-- `process_id=$(cat "$LOCK_FILE")`. -/
  | read
  /-- `kill -0 "$process_id"`. -/
  | probe (processId : Nat)
  /-- `rm -f "$LOCK_FILE"`. -/
  | remove
  /-- `echo $$ > "$LOCK_FILE"`. -/
  | write
  /-- All that follows `acquire_lock`; the exit trap is set. -/
  | work
  deriving DecidableEq

structure State where
  /-- The process that the lock file names. -/
  lockFile : Option Nat
  /-- The live processes of the script. -/
  phase : Nat → Option Phase
  /-- The other live processes. -/
  others : Nat → Bool

namespace State

variable (s : State)

def isLive (processId : Nat) : Bool := (s.phase processId).isSome || s.others processId

/-- A process goes on to another phase, or ends. -/
def goTo (processId : Nat) (phase : Option Phase) : State :=
  { s with phase := Function.update s.phase processId phase }

@[simp] theorem goTo_lockFile {processId : Nat} {phase : Option Phase} :
    (s.goTo processId phase).lockFile = s.lockFile := rfl

@[simp] theorem goTo_phase {processId : Nat} {phase : Option Phase} :
    (s.goTo processId phase).phase = Function.update s.phase processId phase := rfl

end State

inductive Event where
  /-- A push or a pull is started. -/
  | start (processId : Nat)
  /-- A process does its next step in `acquire_lock`. -/
  | advance (processId : Nat)
  /-- A process exits; its trap, once set, removes the lock file. -/
  | exit (processId : Nat)
  /-- A process dies without cleaning up. -/
  | die (processId : Nat)
  /-- A process of another program starts, or ends. -/
  | other (processId : Nat)

/-- `acquire_lock`: a lock file that is gone when it is read ends the script, as does one that names
a live process. -/
def advance (s : State) (processId : Nat) : Phase → Option State
  | .test => some (s.goTo processId (some (if s.lockFile.isSome then .read else .write)))
  | .read => some (s.goTo processId (s.lockFile.map .probe))
  | .probe named => some (s.goTo processId (if s.isLive named then none else some .remove))
  | .remove => some { s.goTo processId (some .write) with lockFile := none }
  | .write => some { s.goTo processId (some .work) with lockFile := some processId }
  | .work => none

/-- What an event leads to, where it can happen. -/
def next (s : State) : Event → Option State
  | .start processId =>
    if s.isLive processId then none else some (s.goTo processId (some .test))
  | .advance processId => (s.phase processId).bind (advance s processId)
  | .exit processId => (s.phase processId).map fun phase =>
    if phase = .work then { s.goTo processId none with lockFile := none } else s.goTo processId none
  | .die processId => (s.phase processId).map fun _ => s.goTo processId none
  | .other processId =>
    if (s.phase processId).isSome then none
    else some { s with others := Function.update s.others processId (!s.others processId) }

def Step (s s' : State) : Prop := ∃ event, next s event = some s'

/-- What a list of events leads to is reached by steps of which each event is one. -/
theorem reflTransGen_of_foldlM {σ ε : Type} {f : σ → ε → Option σ} {R : σ → σ → Prop} {s s' : σ}
    (events : List ε) (h : events.foldlM f s = some s')
    (hstep : ∀ s event s', f s event = some s' → R s s') : Relation.ReflTransGen R s s' := by
  induction events generalizing s with
  | nil =>
    cases h
    exact .refl
  | cons event events ih =>
    rw [List.foldlM_cons] at h
    obtain ⟨between, hnext, hrest⟩ := Option.bind_eq_some_iff.mp h
    exact .head (hstep s event between hnext) (ih hrest)

end ArchInstaller.DotfilesSync.Lock
