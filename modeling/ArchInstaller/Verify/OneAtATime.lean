import ArchInstaller.Scripts.DotfilesLock

/-! # One dotfiles-sync at a time

What a process has found out about the lock file may no longer be so when it removes the file or
writes its own. While it still is so, the lock file names every process that works. -/

namespace ArchInstaller.DotfilesSync.Lock

/-- No two live processes have passed `acquire_lock`. -/
def State.Exclusive (s : State) : Prop :=
  ∀ processId processId', s.phase processId = some .work → s.phase processId' = some .work →
    processId = processId'

/-- No push and no pull runs; there may be a lock file, and other processes. -/
def State.Idle (s : State) : Prop := ∀ processId, s.phase processId = none

/-- The lock file, if there is one, names a process that has died. -/
def State.LockIsStale (s : State) : Prop :=
  ∀ processId ∈ s.lockFile, s.isLive processId = false

instance (s : State) : Decidable s.LockIsStale :=
  inferInstanceAs (Decidable (∀ processId ∈ s.lockFile, s.isLive processId = false))

/-- A process that removes the lock file as stale, or writes its own, does so while no lock file
names a live process. -/
def Calm (s : State) : Event → Prop
  | .advance processId =>
    s.phase processId = some .remove ∨ s.phase processId = some .write → s.LockIsStale
  | _ => True

instance (s : State) : (event : Event) → Decidable (Calm s event)
  | .advance processId => inferInstanceAs (Decidable
    (s.phase processId = some .remove ∨ s.phase processId = some .write → s.LockIsStale))
  | .start _ | .exit _ | .die _ | .other _ => inferInstanceAs (Decidable True)

/-- What a calm event leads to. -/
def calmNext (s : State) (event : Event) : Option State :=
  if Calm s event then next s event else none

def CalmStep (s s' : State) : Prop := ∃ event, calmNext s event = some s'

/-- The lock file names every process that works. -/
def State.Named (s : State) : Prop :=
  ∀ processId, s.phase processId = some .work → s.lockFile = some processId

namespace State

variable {s : State}

theorem Named.exclusive (h : s.Named) : s.Exclusive := fun processId processId' hwork hwork' =>
  Option.some.inj ((h processId hwork).symm.trans (h processId' hwork'))

/-- A lock file that names no live process leaves none that works. -/
theorem Named.no_work (h : s.Named) (hstale : s.LockIsStale) (processId : Nat) :
    s.phase processId ≠ some .work := by
  intro hwork
  have hdead := hstale processId (h processId hwork)
  rw [isLive, hwork] at hdead
  cases hdead

/-- A process that does not start to work leaves the others as they are. -/
theorem Named.goTo (h : s.Named) {processId : Nat} {phase : Option Phase}
    (hphase : phase ≠ some .work) : (s.goTo processId phase).Named := by
  intro other hwork
  rw [goTo_phase] at hwork
  by_cases heq : other = processId
  · rw [heq, Function.update_self] at hwork
    exact absurd hwork hphase
  · rw [Function.update_of_ne heq] at hwork
    exact h other hwork

end State

theorem named_advance {s s' : State} {processId : Nat} {phase : Phase} (h : s.Named)
    (hphase : s.phase processId = some phase) (hcalm : Calm s (.advance processId))
    (hnext : advance s processId phase = some s') : s'.Named := by
  cases phase with
  | test =>
    cases hnext
    exact h.goTo (by split <;> simp)
  | read =>
    cases hnext
    exact h.goTo (by simp)
  | probe named =>
    cases hnext
    exact h.goTo (by split <;> simp)
  | remove =>
    cases hnext
    intro other hwork
    have hnone := h.no_work (hcalm (.inl hphase))
    by_cases heq : other = processId
    · simp [heq] at hwork
    · exact absurd (by simpa [heq] using hwork) (hnone other)
  | write =>
    cases hnext
    intro other hwork
    have hnone := h.no_work (hcalm (.inr hphase))
    by_cases heq : other = processId
    · rw [heq]
    · exact absurd (by simpa [heq] using hwork) (hnone other)
  | work => cases hnext

theorem CalmStep.named {s s' : State} (hstep : CalmStep s s') (h : s.Named) : s'.Named := by
  obtain ⟨event, hnext⟩ := hstep
  obtain ⟨hcalm, hnext⟩ := Option.ite_none_right_eq_some.mp hnext
  cases event with
  | start processId =>
    simp only [next] at hnext
    split at hnext
    · cases hnext
    · cases hnext
      exact h.goTo (by simp)
  | advance processId =>
    obtain ⟨phase, hphase, hnext⟩ := Option.bind_eq_some_iff.mp hnext
    exact named_advance h hphase hcalm hnext
  | exit processId =>
    obtain ⟨phase, hphase, rfl⟩ := Option.map_eq_some_iff.mp hnext
    split
    · next hwork =>
      -- the only process that works is the one that exits
      subst hwork
      intro other hother
      by_cases heq : other = processId
      · simp [heq] at hother
      · exact absurd (h.exclusive other processId (by simpa [heq] using hother) hphase) heq
    · exact h.goTo (by simp)
  | die processId =>
    obtain ⟨phase, -, rfl⟩ := Option.map_eq_some_iff.mp hnext
    exact h.goTo (by simp)
  | other processId =>
    simp only [next] at hnext
    split at hnext
    · cases hnext
    · cases hnext
      exact h

theorem named_of_calmSteps {s s' : State} (hidle : s.Idle)
    (hsteps : Relation.ReflTransGen CalmStep s s') : s'.Named := by
  induction hsteps with
  | refl =>
    intro processId hwork
    rw [hidle processId] at hwork
    cases hwork
  | tail _ hstep ih => exact hstep.named ih

/-- Where no process removes or overwrites a lock file that names a live process, no two are past
`acquire_lock`. -/
theorem exclusive_of_calmSteps {s s' : State} (hidle : s.Idle)
    (hsteps : Relation.ReflTransGen CalmStep s s') : s'.Exclusive :=
  (named_of_calmSteps hidle hsteps).exclusive

/-- Nothing runs, and there is no lock file. -/
def quiet : State := { lockFile := none, phase := fun _ => none, others := fun _ => false }

theorem idle_quiet : quiet.Idle := fun _ => rfl

/-- A process takes over the lock of one that was killed. -/
theorem exclusive_of_calmSteps_takeOver : ∃ s : State, s.phase 2 = some .work ∧ s.Exclusive := by
  have hreach : ∃ s, Relation.ReflTransGen CalmStep quiet s ∧ s.phase 2 = some .work :=
    ⟨_, reflTransGen_of_foldlM [.start 1, .advance 1, .advance 1, .die 1, .start 2, .advance 2,
      .advance 2, .advance 2, .advance 2, .advance 2] rfl fun _ event _ hnext => ⟨event, hnext⟩,
      by decide⟩
  obtain ⟨s, hsteps, hwork⟩ := hreach
  exact ⟨s, hwork, exclusive_of_calmSteps idle_quiet hsteps⟩

/-- Two processes that both find no lock file both write it. -/
theorem not_exclusive :
    ¬ ∀ s s' : State, s.Idle → Relation.ReflTransGen Step s s' → s'.Exclusive := by
  intro h
  have hreach : ∃ s, Relation.ReflTransGen Step quiet s ∧
      s.phase 1 = some .work ∧ s.phase 2 = some .work :=
    ⟨_, reflTransGen_of_foldlM [.start 1, .start 2, .advance 1, .advance 2, .advance 1, .advance 2]
      rfl fun _ event _ hnext => ⟨event, hnext⟩, by decide, by decide⟩
  obtain ⟨s, hsteps, hfirst, hsecond⟩ := hreach
  exact absurd (h quiet s idle_quiet hsteps 1 2 hfirst hsecond) (by decide)

/-- A process that comes to remove or write the lock file while another works ends up beside it. -/
theorem exists_not_exclusive {s : State} {processId worker : Nat}
    (hwork : s.phase worker = some .work)
    (hphase : s.phase processId = some .remove ∨ s.phase processId = some .write) :
    ∃ s', Relation.ReflTransGen Step s s' ∧ ¬ s'.Exclusive := by
  have hne : worker ≠ processId := by
    rintro rfl
    rw [hwork] at hphase
    simp at hphase
  have hbreaks : ∀ {t : State}, t.phase worker = some .work → t.phase processId = some .write →
      ∃ t', Step t t' ∧ ¬ t'.Exclusive := by
    intro t htwork htphase
    refine ⟨_, ⟨.advance processId, by rw [next, htphase]; rfl⟩, fun hexclusive => ?_⟩
    exact hne (hexclusive worker processId (by simpa [hne] using htwork) (by simp))
  rcases hphase with hremove | hwrite
  · obtain ⟨s', hstep, hbroken⟩ := @hbreaks { s.goTo processId (some .write) with lockFile := none }
      (by simpa [hne] using hwork) (by simp)
    exact ⟨s', .head ⟨.advance processId, by rw [next, hremove]; rfl⟩ (.single hstep), hbroken⟩
  · obtain ⟨s', hstep, hbroken⟩ := hbreaks hwork hwrite
    exact ⟨s', .single hstep, hbroken⟩

end ArchInstaller.DotfilesSync.Lock
