import ArchInstaller.Python.Digits
import ArchInstaller.Verify.KernelUkis
import ArchInstaller.Verify.RefreshRuns
import ArchInstaller.World.SnapshotReplies
import Mathlib.Tactic.Push

/-! # Refreshes that overlap

The path unit, the pacman hook and the plugged in drive each start refreshes, which nothing keeps
apart. Whichever removes last builds all of its UKIs after that. -/

namespace ArchInstaller.SnapshotEntries.Refresh

open Interaction PyText VerifyInstall

/-- The drive stays plugged in, no snapshot is made or deleted, and each `rm` does its work. -/
structure Calm {τ : Type} (system : System) (s : State)
    (history : Interleaving τ Command Reply Event) (s' : State) : Prop where
  proceeds : Proceeds (world system) Event.Step s history s'
  reachable : s.reachable
  calm : ∀ event, .happened event ∈ history → event.isCalm
  removes : ∀ who path reply, .did who (.rm path) reply ∈ history → reply.success

/-- Refreshes that have all come to their end in calm. -/
structure Overlap {τ : Type} [DecidableEq τ] (system : System) (sources : CmdlineSources)
    (preferredKernel : String) (maxSnapshots : Nat) (s : State)
    (history : Interleaving τ Command Reply Event) (s' : State) : Prop extends
    Calm system s history s' where
  returned : ∀ who, Runs (refreshEntries sources preferredKernel maxSnapshots)
    (exchangesOf who history) (.returned ())

variable {system : System} {sources : CmdlineSources} {preferredKernel kernel path : String}
  {maxSnapshots : Nat} {s s' : State} {snapshots : Finset Nat} {command : Command} {reply : Reply}

/-! ## What one command does -/

theorem State.put_ukis (file : Option UkiFile) (path' : String) :
    (s.put path file).ukis path' = if path' = path then file else s.ukis path' := by
  simp [put, Function.update_apply]

@[simp] theorem State.put_reachable {file : Option UkiFile} :
    (s.put path file).reachable = s.reachable := rfl

@[simp] theorem State.put_snapshots {file : Option UkiFile} :
    (s.put path file).snapshots = s.snapshots := rfl

theorem State.remove_cases (s : State) (path : String) :
    path = refreshPendingMarker ∧ s.remove path = { s with marker := false } ∨
      path ≠ refreshPendingMarker ∧ s.reachable ∧ s.remove path = s.put path none ∨
      path ≠ refreshPendingMarker ∧ s.reachable = false ∧ s.remove path = s := by
  unfold remove
  split
  · exact .inl ⟨‹_›, rfl⟩
  · split
    · exact .inr (.inl ⟨‹_›, ‹_›, rfl⟩)
    · exact .inr (.inr ⟨‹_›, by simpa using ‹¬ s.reachable = true›, rfl⟩)

/-- All that a command can do. -/
theorem world_cases (h : world system s command reply s') :
    s' = s ∧ Answers system s command reply ∨
    command = .touch refreshPendingMarker ∧ s' = { s with marker := true } ∨
    (∃ path, command = .rm path ∧ reply.success ∧ s' = s.remove path) ∨
    ∃ build, command.build? = some build ∧ Builds s build reply.success s' := by
  cases command with
  | touch path =>
    simp only [world] at h
    split at h
    · next hmarker =>
      simp only [Bool.and_eq_true, beq_iff_eq] at hmarker
      exact .inr (.inl ⟨by rw [hmarker.2], h⟩)
    · exact .inl ⟨h, trivial⟩
  | rm path =>
    simp only [world] at h
    split at h
    · exact .inr (.inr (.inl ⟨path, rfl, ‹_›, h⟩))
    · exact .inl ⟨h, trivial⟩
  | ukify build | objcopy build => exact .inr (.inr (.inr ⟨build, rfl, h⟩))
  | _ => exact .inl h

theorem Builds.cases {build : Build} {success : Bool} (h : Builds s build success s') :
    s' = s ∧ success = false ∨ ∃ file, s' = s.put build.output file ∧
      (success → file = some (.whole build)) := by
  unfold Builds at h
  split at h
  · exact .inr ⟨_, h.2, fun _ => rfl⟩
  · next hfailed =>
    rcases h with rfl | ⟨-, left, -, rfl⟩
    · exact .inl ⟨rfl, by simpa using hfailed⟩
    · exact .inr ⟨left, rfl, fun hsuccess => absurd hsuccess hfailed⟩

/-- No command plugs the drive in or out, or changes the snapshots. -/
theorem world_frame (h : world system s command reply s') :
    s'.reachable = s.reachable ∧ s'.snapshots = s.snapshots := by
  rcases world_cases h with ⟨rfl, -⟩ | ⟨-, rfl⟩ | ⟨path, -, -, rfl⟩ | ⟨build, -, hbuild⟩
  · exact ⟨rfl, rfl⟩
  · exact ⟨rfl, rfl⟩
  · rcases s.remove_cases path with ⟨-, hremove⟩ | ⟨-, -, hremove⟩ | ⟨-, -, hremove⟩ <;>
      rw [hremove] <;> exact ⟨rfl, rfl⟩
  · rcases hbuild.cases with ⟨rfl, -⟩ | ⟨file, rfl, -⟩ <;> exact ⟨rfl, rfl⟩

/-- A file in the UKI directory changes by its removal and by builds alone. -/
theorem world_ukis (h : world system s command reply s') (path : String) :
    s'.ukis path = s.ukis path ∨ command = .rm path ∧ s'.ukis path = none ∨
      ∃ build, command.build? = some build ∧ build.output = path ∧
        (reply.success → s'.ukis path = some (.whole build)) := by
  rcases world_cases h with ⟨rfl, -⟩ | ⟨-, rfl⟩ | ⟨path', rfl, -, rfl⟩ | ⟨build, hcommand, hbuild⟩
  · exact .inl rfl
  · exact .inl rfl
  · rcases s.remove_cases path' with ⟨-, hremove⟩ | ⟨-, -, hremove⟩ | ⟨-, -, hremove⟩ <;>
      rw [hremove]
    · exact .inl rfl
    · rw [State.put_ukis]
      split
      · next heq => exact .inr (.inl ⟨by rw [heq], rfl⟩)
      · exact .inl rfl
    · exact .inl rfl
  · rcases hbuild.cases with ⟨rfl, -⟩ | ⟨file, rfl, hfile⟩
    · exact .inl rfl
    · rw [State.put_ukis]
      split
      · next heq => exact .inr (.inr ⟨build, hcommand, heq.symm, hfile⟩)
      · exact .inl rfl

theorem world_rm (h : world system s (.rm path) reply s') (hreach : s.reachable)
    (hpath : path ≠ refreshPendingMarker) (hsuccess : reply.success) : s'.ukis path = none := by
  obtain rfl : s' = if reply.success then s.remove path else s := h
  rw [if_pos hsuccess]
  rcases s.remove_cases path with ⟨heq, -⟩ | ⟨-, -, hremove⟩ | ⟨-, hnot, -⟩
  · exact absurd heq hpath
  · rw [hremove, State.put_ukis, if_pos rfl]
  · rw [hreach] at hnot
    cases hnot

theorem world_build {build : Build} (hcommand : command.build? = some build)
    (h : world system s command reply s') (hsuccess : reply.success) :
    s'.ukis build.output = some (.whole build) := by
  have hbuilds : Builds s build reply.success s' := by
    cases command with
    | ukify | objcopy =>
      cases hcommand
      exact h
    | _ => cases hcommand
  rw [Builds, if_pos hsuccess] at hbuilds
  rw [hbuilds.2, State.put_ukis, if_pos rfl]

/-- What a command says is what is seen. -/
theorem seen_of_world (hreach : s.reachable) (h : world system s command reply s') :
    Seen system s.snapshots command reply := by
  cases command with
  | touch | rm | ukify | objcopy => trivial
  | lsEfi => exact h.2.trans hreach
  | _ => first | exact h.2 | trivial

/-! ## The names of the UKIs -/

theorem snapshotUki_toList (number : Nat) (kernel : String) : (snapshotUki number kernel).toList =
    (ukiDir ++ "/" ++ snapshotUkiPrefix).toList ++
      ('-' :: (toString number).toList ++ '-' :: kernel.toList ++ ".efi".toList) := by
  have heq : snapshotUki number kernel = ukiDir ++ "/" ++ snapshotUkiPrefix ++ "-" ++
      toString number ++ "-" ++ kernel ++ ".efi" := rfl
  have hdash : "-".toList = ['-'] := rfl
  simp only [heq, String.toList_append, hdash, List.append_assoc, List.cons_append, List.nil_append]

theorem snapshotUki_inj {number number' : Nat}
    (h : snapshotUki number kernel = snapshotUki number' kernel) : number = number' := by
  have hlist := congrArg String.toList h
  rw [snapshotUki_toList, snapshotUki_toList] at hlist
  have hnumber : (toString number).toList = (toString number').toList := by simpa using hlist
  exact toString_nat_inj (String.toList_inj.mp hnumber)

/-- The pattern takes in every UKI of a snapshot. -/
theorem isSnapshotUki_snapshotUki {number : Nat} (hkernel : '/' ∉ kernel.toList) :
    isSnapshotUki (snapshotUki number kernel) := by
  have hpattern : snapshotUkis.toList =
      (ukiDir ++ "/" ++ snapshotUkiPrefix).toList ++ '*' :: ".efi".toList := by
    simp [snapshotUkis, String.toList_append]
  have hliteral : ∀ c ∈ (ukiDir ++ "/" ++ snapshotUkiPrefix).toList, isLiteralChar c :=
    forall_mem_of_all (by decide)
  rw [isSnapshotUki, snapshotUki_toList, hpattern, glob_literal hliteral]
  refine ⟨_, rfl, ?_⟩
  rw [glob_asterisk, anyThen_iff]
  refine ⟨'-' :: (toString number).toList ++ '-' :: kernel.toList, ".efi".toList, rfl, ?_,
    (glob_all_literal (forall_mem_of_all (by decide)) _).mpr rfl⟩
  have hdigits : '/' ∉ (toString number).toList := not_mem_toString (by decide) number
  simp only [List.mem_cons, List.mem_append, not_or]
  exact ⟨⟨by decide, hdigits⟩, by decide, hkernel⟩

theorem ne_marker_of_isSnapshotUki (h : isSnapshotUki path) : path ≠ refreshPendingMarker := by
  rintro rfl
  exact absurd h (by decide)

/-! ## What a history does -/

variable {τ : Type} {history : Interleaving τ Command Reply Event}

/-- What a calm event leaves as it is. -/
theorem Event.Step.frame {event : Event} (hcalm : event.isCalm) (h : event.Step s s') :
    s'.reachable = s.reachable ∧ s'.snapshots = s.snapshots ∧ s'.ukis = s.ukis := by
  cases event with
  | describe number time =>
    obtain ⟨-, rfl⟩ := h
    exact ⟨rfl, rfl, rfl⟩
  | _ => cases hcalm

theorem Event.Step.ukis_eq {event : Event} (h : event.Step s s') : s'.ukis = s.ukis := by
  cases event with
  | plug | pull =>
    obtain rfl := h
    rfl
  | create | describe | delete =>
    obtain ⟨-, rfl⟩ := h
    rfl

/-- A file that is not there appears only where a build puts it. -/
theorem ukis_none_of_proceeds (h : Proceeds (world system) Event.Step s history s')
    (hbuilds : ∀ who command reply build, .did who command reply ∈ history →
      command.build? = some build → build.output ≠ path)
    (hnone : s.ukis path = none) : s'.ukis path = none := by
  refine h.preserves (P := fun s => s.ukis path = none) (fun o ho mid mid' hmid hstep => ?_) hnone
  cases o with
  | happened event => rwa [hstep.ukis_eq]
  | did who command reply =>
    rcases world_ukis hstep path with heq | ⟨-, hgone⟩ | ⟨build, hbuild, houtput, -⟩
    · rwa [heq]
    · exact hgone
    · exact absurd houtput (hbuilds who command reply build ho hbuild)

/-- A whole UKI stays one while it is not removed and no build of it fails. -/
theorem ukis_whole_of_proceeds (h : Proceeds (world system) Event.Step s history s')
    (hremoves : ∀ who reply, .did who (.rm path) reply ∉ history)
    (hbuilds : ∀ who command reply build, .did who command reply ∈ history →
      command.build? = some build → build.output = path → reply.success)
    {good : Build → Prop} (hgood : ∀ who command reply build, .did who command reply ∈ history →
      command.build? = some build → build.output = path → good build)
    (hwhole : ∃ build, s.ukis path = some (.whole build) ∧ good build) :
    ∃ build, s'.ukis path = some (.whole build) ∧ good build := by
  refine h.preserves (P := fun s => ∃ build, s.ukis path = some (.whole build) ∧ good build)
    (fun o ho mid mid' hmid hstep => ?_) hwhole
  cases o with
  | happened event => rwa [hstep.ukis_eq]
  | did who command reply =>
    rcases world_ukis hstep path with heq | ⟨rfl, -⟩ | ⟨build, hbuild, houtput, hput⟩
    · rwa [heq]
    · exact absurd ho (hremoves who reply)
    · exact ⟨build, hput (hbuilds who command reply build ho hbuild houtput),
        hgood who command reply build ho hbuild houtput⟩

/-! ## In calm -/

/-- The drive is plugged in all the time, among the same snapshots. -/
theorem Calm.exists_step (h : Calm system s history s') {o : Occurrence τ Command Reply Event}
    {before after : Interleaving τ Command Reply Event} (hsplit : history = before ++ o :: after) :
    ∃ here next, here.reachable ∧ here.snapshots = s.snapshots ∧
      o.Step (world system) Event.Step here next ∧
      Proceeds (world system) Event.Step next after s' := by
  obtain ⟨here, next, hbefore, hstep, hafter⟩ := (hsplit ▸ h.proceeds).split
  have hkept : here.reachable ∧ here.snapshots = s.snapshots := by
    refine hbefore.preserves (P := fun state => state.reachable ∧ state.snapshots = s.snapshots)
      (fun o' ho' mid mid' hmid hstep' => ?_) ⟨h.reachable, rfl⟩
    cases o' with
    | did who command reply =>
      obtain ⟨hreach, hsnapshots⟩ := world_frame hstep'
      exact ⟨hreach.trans hmid.1, hsnapshots.trans hmid.2⟩
    | happened event =>
      have hcalm := h.calm event (by rw [hsplit]; exact List.mem_append_left _ ho')
      obtain ⟨hreach, hsnapshots, -⟩ := hstep'.frame hcalm
      exact ⟨hreach.trans hmid.1, hsnapshots.trans hmid.2⟩
  exact ⟨here, next, hkept.1, hkept.2, hstep, hafter⟩

/-- What a refresh removes and nobody builds is gone in the end. -/
theorem Calm.ukis_none (h : Calm system s history s') {who : τ} {expansion : Reply}
    (hexpansion : .did who .expandUkis expansion ∈ history)
    (hremoved : ∀ path ∈ expansion.paths, ∃ reply, .did who (.rm path) reply ∈ history)
    (hpath : isSnapshotUki path)
    (hbuilds : ∀ who command reply build, .did who command reply ∈ history →
      command.build? = some build → build.output ≠ path) : s'.ukis path = none := by
  obtain ⟨before, after, hsplit⟩ := List.append_of_mem hexpansion
  obtain ⟨here, next, hreach, -, hstep, hafter⟩ := h.exists_step hsplit
  by_cases hhere : here.ukis path = none
  · obtain rfl : next = here := hstep.1
    refine ukis_none_of_proceeds hafter (fun who command reply build hmem => ?_) hhere
    exact hbuilds who command reply build (by simp [hsplit, hmem])
  · obtain ⟨reply, hrm⟩ := hremoved path ((hstep.2 path).mpr ⟨hreach, hpath, hhere⟩)
    obtain ⟨before, after, hsplit⟩ := List.append_of_mem hrm
    obtain ⟨here, next, hreach, -, hstep, hafter⟩ := h.exists_step hsplit
    have hworld : world system here (.rm path) reply next := hstep
    refine ukis_none_of_proceeds hafter (fun who command reply build hmem => ?_)
      (world_rm hworld hreach (ne_marker_of_isSnapshotUki hpath) (h.removes _ _ _ hrm))
    exact hbuilds who command reply build (by simp [hsplit, hmem])

/-! ## Refreshes that overlap -/

namespace Overlap

variable [DecidableEq τ]

theorem phases (h : Overlap system sources preferredKernel maxSnapshots s history s') (who : τ) :
    ∃ first second, exchangesOf who history = first ++ second ∧
      Phases system sources preferredKernel maxSnapshots s.snapshots first second := by
  refine exists_phases (h.returned who) fun x hx => ?_
  obtain ⟨before, after, hsplit⟩ := List.append_of_mem (mem_exchangesOf.mp hx)
  obtain ⟨here, next, hreach, hsnapshots, hstep, -⟩ := h.exists_step hsplit
  rw [← hsnapshots]
  exact seen_of_world hreach hstep

/-- Every build is of one of the newest snapshots, for the one kernel. -/
theorem builds (h : Overlap system sources preferredKernel maxSnapshots s history s') {who : τ}
    {build : Build} (hmem : .did who command reply ∈ history)
    (hbuild : command.build? = some build) :
    build.number ∈ newest maxSnapshots s.snapshots ∧
      build.kernel = system.kernel preferredKernel ∧ build.cmdline =
        buildSnapshotCmdline sources (snapshotSubvolume build.number) "rw" := by
  obtain ⟨first, second, hsplit, hphases⟩ := h.phases who
  have hexchange : (command, reply) ∈ exchangesOf who history := mem_exchangesOf.mpr hmem
  rw [hsplit] at hexchange
  exact (hphases.build (List.mem_filterMap.mpr ⟨_, hexchange, hbuild⟩)).2

/-- However the refreshes overlap, no UKI is left but those of the newest snapshots. -/
theorem newest_of_ukis (h : Overlap system sources preferredKernel maxSnapshots s history s')
    (who : τ) (hpath : isSnapshotUki path) (huki : s'.ukis path ≠ none) :
    ∃ number ∈ newest maxSnapshots s.snapshots,
      path = snapshotUki number (system.kernel preferredKernel) := by
  by_contra hnot
  push Not at hnot
  obtain ⟨first, second, hparts, hphases⟩ := h.phases who
  obtain ⟨expansion, hexpansion, hremoved⟩ := hphases.removed
  have hdid : ∀ x ∈ first, .did who x.1 x.2 ∈ history := fun x hx =>
    mem_exchangesOf.mp (by rw [hparts]; exact List.mem_append_left _ hx)
  refine huki (h.ukis_none (hdid _ hexpansion) (fun path hpath => ?_) hpath ?_)
  · obtain ⟨reply, hreply⟩ := hremoved path hpath
    exact ⟨reply, hdid _ hreply⟩
  · intro who command reply build hmem hbuild houtput
    obtain ⟨hnumber, hkernel, -⟩ := h.builds hmem hbuild
    exact hnot _ hnumber (by rw [← houtput, Build.output, hkernel])

/-- After the last removal of a UKI, the refresh that did it tries to build that UKI. -/
theorem exists_last_attempt [Nonempty τ]
    (h : Overlap system sources preferredKernel maxSnapshots s history s') {number : Nat}
    (path : String)
    (hcan : system.canBuild (system.kernel preferredKernel))
    (hnumber : number ∈ newest maxSnapshots s.snapshots) : ∃ before after who command reply build,
      history = before ++ .did who command reply :: after ∧ command.build? = some build ∧
        build.number = number ∧ ∀ who reply, .did who (.rm path) reply ∉ after := by
  by_cases hremoved : ∃ o ∈ history, ∃ who reply, o = .did who (.rm path) reply
  · obtain ⟨before, _, after, rfl, ⟨who, reply, rfl⟩, hlast⟩ := exists_last hremoved
    obtain ⟨first, second, hparts, hphases⟩ := h.phases who
    obtain ⟨x, hx, build, hbuild, hbuildNumber⟩ := hphases.exists_attempt hcan hnumber
    have hsuffix : second <:+ exchangesOf who after :=
      suffix_of_last (P := fun x => x.1 = .rm path) (x := (.rm path, reply)) hparts rfl
        fun y hy => (hphases.rebuilds y hy).removes path
    obtain ⟨middle, later, rfl⟩ := List.append_of_mem (mem_exchangesOf.mp (hsuffix.subset hx))
    refine ⟨before ++ .did who (.rm path) reply :: middle, later, who, x.1, x.2, build, by simp,
      hbuild, hbuildNumber, fun who' reply' hmem => ?_⟩
    exact hlast _ (by simp [hmem]) ⟨who', reply', rfl⟩
  · obtain ⟨who⟩ := ‹Nonempty τ›
    obtain ⟨first, second, hparts, hphases⟩ := h.phases who
    obtain ⟨x, hx, build, hbuild, hbuildNumber⟩ := hphases.exists_attempt hcan hnumber
    have hdid : .did who x.1 x.2 ∈ history :=
      mem_exchangesOf.mp (by rw [hparts]; exact List.mem_append_right _ hx)
    obtain ⟨before, after, rfl⟩ := List.append_of_mem hdid
    refine ⟨before, after, who, x.1, x.2, build, rfl, hbuild, hbuildNumber,
      fun who' reply' hmem => ?_⟩
    exact hremoved ⟨_, by simp [hmem], who', reply', rfl⟩

/-- The UKI of each of the newest snapshots is there in the end, if no build of it fails. -/
theorem whole_of_newest [Nonempty τ]
    (h : Overlap system sources preferredKernel maxSnapshots s history s') {number : Nat}
    (hcan : system.canBuild (system.kernel preferredKernel))
    (hnumber : number ∈ newest maxSnapshots s.snapshots)
    (hbuilt : ∀ who command reply build, .did who command reply ∈ history →
      command.build? = some build → build.number = number → reply.success) :
    ∃ build, s'.ukis (snapshotUki number (system.kernel preferredKernel)) = some (.whole build) ∧
      build.number = number ∧ build.kernel = system.kernel preferredKernel ∧
        build.cmdline = buildSnapshotCmdline sources (snapshotSubvolume number) "rw" := by
  have hgood : ∀ who command reply build, .did who command reply ∈ history →
      command.build? = some build →
      build.output = snapshotUki number (system.kernel preferredKernel) →
      build.number = number ∧ build.kernel = system.kernel preferredKernel ∧
        build.cmdline = buildSnapshotCmdline sources (snapshotSubvolume number) "rw" := by
    intro who command reply build hmem hbuild houtput
    obtain ⟨-, hkernel, hcmdline⟩ := h.builds hmem hbuild
    rw [Build.output, hkernel] at houtput
    obtain rfl := snapshotUki_inj houtput
    exact ⟨rfl, hkernel, hcmdline⟩
  obtain ⟨before, after, who, command, reply, build, hsplit, hbuild, hbuildNumber, hlast⟩ :=
    h.exists_last_attempt (snapshotUki number (system.kernel preferredKernel)) hcan hnumber
  obtain ⟨here, next, -, -, hstep, hafter⟩ := h.exists_step hsplit
  have hmem : .did who command reply ∈ history := by simp [hsplit]
  have hlater : ∀ o ∈ after, o ∈ history := fun o ho => by simp [hsplit, ho]
  have houtput : build.output = snapshotUki number (system.kernel preferredKernel) := by
    rw [Build.output, hbuildNumber, (h.builds hmem hbuild).2.1]
  have hnext := world_build hbuild hstep (hbuilt _ _ _ _ hmem hbuild hbuildNumber)
  rw [houtput] at hnext
  refine ukis_whole_of_proceeds hafter hlast ?_ (fun who command reply build hmem =>
    hgood who command reply build (hlater _ hmem)) ⟨build, hnext, hgood _ _ _ _ hmem hbuild houtput⟩
  intro who command reply build hmem hbuild houtput
  exact hbuilt _ _ _ _ (hlater _ hmem) hbuild (hgood _ _ _ _ (hlater _ hmem) hbuild houtput).1

end Overlap

/-- Where builds of other snapshots fail, this one's are done. -/
def NeverFails {τ : Type} (history : Interleaving τ Command Reply Event) (number : Nat) : Prop :=
  ∀ who command reply build, .did who command reply ∈ history → command.build? = some build →
    build.number = number → reply.success

/-- When refreshes that overlapped have all ended, no snapshot has a UKI but the newest, and each of
these has a whole one that boots it, if no build of it failed. -/
theorem overlap_exact [DecidableEq τ] [Nonempty τ]
    (h : Overlap system sources preferredKernel maxSnapshots s history s')
    (hcan : system.canBuild (system.kernel preferredKernel)) :
    (∀ path, isSnapshotUki path → s'.ukis path ≠ none →
      ∃ number ∈ newest maxSnapshots s.snapshots,
        path = snapshotUki number (system.kernel preferredKernel)) ∧
    ∀ number ∈ newest maxSnapshots s.snapshots, NeverFails history number → ∃ build,
      s'.ukis (snapshotUki number (system.kernel preferredKernel)) = some (.whole build) ∧
        build.number = number ∧ build.kernel = system.kernel preferredKernel ∧
          build.cmdline = buildSnapshotCmdline sources (snapshotSubvolume number) "rw" := by
  have who : τ := Classical.arbitrary τ
  exact ⟨fun path hpath huki => h.newest_of_ukis who hpath huki,
    fun number hnumber hbuilt => h.whole_of_newest hcan hnumber hbuilt⟩

/-! ## One refresh alone -/

/-- A refresh that comes to its end by itself, with the drive plugged in, where each `rm` does its
work. -/
structure Alone (system : System) (sources : CmdlineSources) (preferredKernel : String)
    (maxSnapshots : Nat) (s : State) (exchanges : List (Command × Reply)) (s' : State) : Prop where
  returned : Runs (refreshEntries sources preferredKernel maxSnapshots) exchanges (.returned ())
  replays : Replays (world system) s exchanges s'
  reachable : s.reachable
  removes : ∀ path reply, (.rm path, reply) ∈ exchanges → reply.success

/-- The snapshot's UKI was built. -/
def Built (exchanges : List (Command × Reply)) (number : Nat) : Prop :=
  ∃ x ∈ exchanges, ∃ build, x.1.build? = some build ∧ build.number = number ∧ x.2.success

theorem exists_built_of_any {exchanges : List (Command × Reply)} {number : Nat}
    (h : exchanges.any fun x => x.1.build?.any (·.number == number) && x.2.success) :
    Built exchanges number := by
  obtain ⟨x, hx, hbuilt⟩ := List.any_eq_true.mp h
  obtain ⟨hbuild, hsuccess⟩ := Bool.and_eq_true_iff.mp hbuilt
  obtain ⟨build, hcommand, hnumber⟩ := (Option.any_eq_true _ _).mp hbuild
  exact ⟨x, hx, build, hcommand, beq_iff_eq.mp hnumber, hsuccess⟩

theorem Alone.overlap {exchanges : List (Command × Reply)}
    (h : Alone system sources preferredKernel maxSnapshots s exchanges s') :
    Overlap system sources preferredKernel maxSnapshots s
      (exchanges.map fun x => .did () x.1 x.2) s' where
  proceeds := h.replays.proceeds
  reachable := h.reachable
  calm event hmem := by simp at hmem
  removes who path reply hmem := by
    obtain ⟨x, hx, heq⟩ := List.mem_map.mp hmem
    rw [Occurrence.did.injEq] at heq
    exact h.removes path reply (by rw [← heq.2.1, ← heq.2.2]; exact hx)
  returned who := by rw [exchangesOf_alone]; exact h.returned

/-- With every command doing its work, a refresh that returns is one alone. -/
theorem alone_of_execute {numbers : List Nat} {paths : List String} (hnodup : numbers.Nodup)
    (hlisted : Listed numbers paths s) (hreachable : s.reachable)
    (hreturned : ((refreshEntries sources preferredKernel maxSnapshots).execute
      (respond system numbers paths) s).2.1 = .returned ()) :
    Alone system sources preferredKernel maxSnapshots s
      ((refreshEntries sources preferredKernel maxSnapshots).execute
        (respond system numbers paths) s).1
      ((refreshEntries sources preferredKernel maxSnapshots).execute
        (respond system numbers paths) s).2.2 where
  returned := hreturned ▸ runs_execute
  replays := (replays_execute (I := Listed numbers paths)
    (fun _ command hs => world_respond hnodup hs command) hlisted).1
  reachable := hreachable
  removes path reply hrm := by
    obtain ⟨here, hreply⟩ := mem_execute hrm
    exact (congrArg Reply.success hreply).trans success_status

/-- A file that is neither removed nor built stays what it is. -/
theorem ukis_eq_of_replays {exchanges : List (Command × Reply)}
    (hreplay : Replays (world system) s exchanges s') (hremoves : ∀ x ∈ exchanges, x.1 ≠ .rm path)
    (hbuilds : ∀ build ∈ attempts exchanges, build.output ≠ path) :
    s'.ukis path = s.ukis path := by
  refine hreplay.preserves (P := fun state => state.ukis path = s.ukis path)
    (fun x hx mid mid' hmid hstep => ?_) rfl
  rcases world_ukis hstep path with heq | ⟨hrm, -⟩ | ⟨build, hbuild, houtput, -⟩
  · exact heq.trans hmid
  · exact absurd hrm (hremoves x hx)
  · exact absurd houtput (hbuilds build (List.mem_filterMap.mpr ⟨x, hx, hbuild⟩))

/-- A build that fails leaves no whole UKI where there was none. -/
theorem whole_iff_of_world {build : Build} (hcommand : command.build? = some build)
    (h : world system s command reply s')
    (hnot : ∀ build', s.ukis build.output ≠ some (.whole build')) :
    (∃ build', s'.ukis build.output = some (.whole build')) ↔ reply.success := by
  constructor
  · rintro ⟨build', hwhole⟩
    by_contra hfailed
    have hbuilds : Builds s build reply.success s' := by
      cases command with
      | ukify | objcopy =>
        cases hcommand
        exact h
      | _ => cases hcommand
    rw [Builds, if_neg hfailed] at hbuilds
    rcases hbuilds with rfl | ⟨-, left, hleft, rfl⟩
    · exact hnot build' hwhole
    · rw [State.put_ukis, if_pos rfl] at hwhole
      subst hwhole
      simp at hleft
  · exact fun hsuccess => ⟨build, world_build hcommand h hsuccess⟩

/-- Without removals, a UKI that is tried once at most is whole in the end where it was built. -/
theorem whole_iff_of_replays {exchanges : List (Command × Reply)}
    (hreplay : Replays (world system) s exchanges s') (hremoves : ∀ x ∈ exchanges, x.1 ≠ .rm path)
    (honce : ((attempts exchanges).map Build.output).Nodup)
    (hnot : ∀ build, s.ukis path ≠ some (.whole build)) :
    (∃ build, s'.ukis path = some (.whole build)) ↔
      ∃ x ∈ exchanges, ∃ build, x.1.build? = some build ∧ build.output = path ∧ x.2.success := by
  induction exchanges generalizing s with
  | nil =>
    obtain rfl := replays_nil_iff.mp hreplay
    simp [hnot]
  | cons x exchanges ih =>
    obtain ⟨mid, hstep, hrest⟩ := replays_cons_iff.mp hreplay
    rw [List.forall_mem_cons] at hremoves
    have hattempts : attempts (x :: exchanges) = x.1.build?.toList ++ attempts exchanges := by
      rw [attempts, List.filterMap_cons]
      split <;> simp [*, attempts]
    rw [hattempts, List.map_append, List.nodup_append] at honce
    by_cases htried : ∃ build, x.1.build? = some build ∧ build.output = path
    · obtain ⟨build, hbuild, rfl⟩ := htried
      have hlater : ∀ build' ∈ attempts exchanges, build'.output ≠ build.output := by
        intro build' hbuild' heq
        exact honce.2.2 _ (by simp [hbuild]) _ (List.mem_map_of_mem hbuild') heq.symm
      rw [ukis_eq_of_replays hrest hremoves.2 hlater, whole_iff_of_world hbuild hstep hnot]
      constructor
      · exact fun hsuccess => ⟨x, List.mem_cons_self, build, hbuild, rfl, hsuccess⟩
      · rintro ⟨y, hy, build', hbuild', houtput, hsuccess⟩
        rcases List.mem_cons.mp hy with rfl | hy
        · exact hsuccess
        · exact absurd houtput (hlater build' (List.mem_filterMap.mpr ⟨y, hy, hbuild'⟩))
    · have hmid : mid.ukis path = s.ukis path := by
        rcases world_ukis hstep path with heq | ⟨hrm, -⟩ | ⟨build, hbuild, houtput, -⟩
        · exact heq
        · exact absurd hrm hremoves.1
        · exact absurd ⟨build, hbuild, houtput⟩ htried
      rw [ih hrest hremoves.2 honce.2.1 (hmid ▸ hnot)]
      constructor
      · rintro ⟨y, hy, hbuilt⟩
        exact ⟨y, List.mem_cons_of_mem _ hy, hbuilt⟩
      · rintro ⟨y, hy, build, hbuild, houtput, hsuccess⟩
        rcases List.mem_cons.mp hy with rfl | hy
        · exact absurd ⟨build, hbuild, houtput⟩ htried
        · exact ⟨y, hy, build, hbuild, houtput, hsuccess⟩

namespace Alone

variable {exchanges : List (Command × Reply)}

/-- One refresh after the other. -/
theorem overlap_of_two {first second : List (Command × Reply)} {mid : State}
    (h : Alone system sources preferredKernel maxSnapshots s first mid)
    (h' : Alone system sources preferredKernel maxSnapshots mid second s') :
    Overlap system sources preferredKernel maxSnapshots s
      (first.map (fun x => .did false x.1 x.2) ++ second.map fun x => .did true x.1 x.2) s' where
  proceeds := proceeds_append_iff.mpr ⟨mid, h.replays.proceeds, h'.replays.proceeds⟩
  reachable := h.reachable
  calm event hmem := by simp at hmem
  removes who path reply hmem := by
    rcases List.mem_append.mp hmem with hmem | hmem <;>
      obtain ⟨x, hx, heq⟩ := List.mem_map.mp hmem <;> rw [Occurrence.did.injEq] at heq
    · exact h.removes path reply (by rw [← heq.2.1, ← heq.2.2]; exact hx)
    · exact h'.removes path reply (by rw [← heq.2.1, ← heq.2.2]; exact hx)
  returned who := by
    cases who with
    | false =>
      rw [exchangesOf_append, exchangesOf_alone, exchangesOf_other (by decide), List.append_nil]
      exact h.returned
    | true =>
      rw [exchangesOf_append, exchangesOf_alone, exchangesOf_other (by decide), List.nil_append]
      exact h'.returned

/-- The UKIs are all gone when the first one is built. -/
theorem ukis_none (h : Alone system sources preferredKernel maxSnapshots s exchanges s')
    {first second : List (Command × Reply)} (hsplit : exchanges = first ++ second) {mid : State}
    (hphases : Phases system sources preferredKernel maxSnapshots s.snapshots first second)
    (hfirst : Replays (world system) s first mid) (hpath : isSnapshotUki path) :
    mid.ukis path = none := by
  have hmem : ∀ {command reply}, .did () command reply ∈
      (first.map fun x => .did () x.1 x.2 : Interleaving Unit Command Reply Event) ↔
        (command, reply) ∈ first := by
    simp
  have hcalm : Calm system s (first.map fun x => .did () x.1 x.2) mid := by
    refine ⟨hfirst.proceeds, h.reachable, by simp, fun who path reply hrm => ?_⟩
    exact h.removes path reply (by rw [hsplit]; exact List.mem_append_left _ (hmem.mp hrm))
  obtain ⟨expansion, hexpansion, hremoved⟩ := hphases.removed
  refine hcalm.ukis_none (hmem.mpr hexpansion) (fun path hpath => ?_) hpath ?_
  · obtain ⟨reply, hreply⟩ := hremoved path hpath
    exact ⟨reply, hmem.mpr hreply⟩
  · intro who command reply build hdid hbuild
    have hattempt : build ∈ attempts first :=
      List.mem_filterMap.mpr ⟨_, hmem.mp hdid, hbuild⟩
    rw [hphases.quiet] at hattempt
    cases hattempt

theorem neverFails_of_two {first second : List (Command × Reply)} {number : Nat}
    (h : (first ++ second).all fun x => x.2.success) :
    NeverFails (first.map (fun x => .did false x.1 x.2) ++
      second.map fun x => .did true x.1 x.2) number := by
  intro who command reply build hmem _ _
  rw [List.all_eq_true] at h
  refine h (command, reply) (List.mem_append.mpr ?_)
  rcases List.mem_append.mp hmem with hmem | hmem <;>
    obtain ⟨x, hx, heq⟩ := List.mem_map.mp hmem <;> rw [Occurrence.did.injEq] at heq <;>
    obtain ⟨-, rfl, rfl⟩ := heq
  · exact .inl hx
  · exact .inr hx

/-- After two refreshes, the one UKI there is boots the newest snapshot. -/
theorem overlap_newest : ∃ s' : State,
    (∀ path, isSnapshotUki path → s'.ukis path ≠ none → path = snapshotUki 2 "linux") ∧
      ∃ build, s'.ukis (snapshotUki 2 "linux") = some (.whole build) := by
  have hfirst : Alone standardSystem quietCmdline "" 1 twoSnapshots _ _ :=
    alone_of_execute (by decide) (@listed_twoSnapshots [snapshotUki 2 "linux"]) rfl rfl
  have hreply : ∀ s command, Listed [1, 2] [snapshotUki 2 "linux"] s →
      world standardSystem s command
        (respond standardSystem [1, 2] [snapshotUki 2 "linux"] s command).1
        (respond standardSystem [1, 2] [snapshotUki 2 "linux"] s command).2 ∧
      Listed [1, 2] [snapshotUki 2 "linux"]
        (respond standardSystem [1, 2] [snapshotUki 2 "linux"] s command).2 :=
    fun _ command hs => world_respond (by decide) hs command
  have hmid := (replays_execute (p := refreshEntries quietCmdline "" 1)
    (I := Listed [1, 2] [snapshotUki 2 "linux"]) hreply listed_twoSnapshots).2
  have hsecond : Alone standardSystem quietCmdline "" 1 _ _ _ :=
    alone_of_execute (by decide) hmid rfl rfl
  obtain ⟨honly, hwhole⟩ := overlap_exact (hfirst.overlap_of_two hsecond) (by decide)
  have hnewest : newest 1 twoSnapshots.snapshots = {2} := by decide
  rw [hnewest] at honly hwhole
  obtain ⟨build, hbuild, -⟩ :=
    hwhole 2 (Finset.mem_singleton_self 2) (neverFails_of_two (by decide))
  refine ⟨_, fun path hpath huki => ?_, build, hbuild⟩
  obtain ⟨number, hnumber, rfl⟩ := honly path hpath huki
  obtain rfl := Finset.mem_singleton.mp hnumber
  rfl

end Alone

end ArchInstaller.SnapshotEntries.Refresh
