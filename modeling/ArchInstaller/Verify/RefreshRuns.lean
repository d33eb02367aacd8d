import ArchInstaller.Interaction.Issues
import ArchInstaller.Interaction.Returning
import ArchInstaller.World.SnapshotBoot
import Mathlib.Data.Finset.Sort

/-! # Runs of a refresh

What a run of `refresh_entries` asks for, in a system that stays the same and among snapshots that
stay the same: it removes the UKIs first and builds those of the newest snapshots then. -/

namespace ArchInstaller.SnapshotEntries.Refresh

open Interaction PyText

variable {σ : Type} {M : Machine Command Reply σ} {s : σ} {command : Command} {α : Type}

/-! ## Rules -/

section Rules

variable {allowed : Command → Reply → Prop} {good : Command → Prop}

@[simp] theorem canReturn_ask {reply : Reply} :
    CanReturn allowed (ask command) reply ↔ allowed command reply := by
  constructor
  · rintro ⟨exchanges, hallowed, hrun⟩
    rcases runs_request_iff.mp hrun with ⟨-, ⟨⟩⟩ | ⟨answer, tail, rfl, hret⟩
    obtain ⟨rfl, hreply⟩ := runs_ret_iff.mp hret
    obtain rfl : reply = answer := by simpa using hreply
    exact (allAllowed_cons.mp hallowed).1
  · exact fun h => ⟨[(command, reply)], by simpa using h, .request .ret⟩

@[simp] theorem canReturn_succeeds {success : Bool} : CanReturn allowed (succeeds command) success ↔
    ∃ reply, allowed command reply ∧ success = reply.success := by
  simp [succeeds]

@[simp] theorem canReturn_echo {message : String} {value : Unit} :
    CanReturn allowed (echo message) value := by
  rw [echo, Interaction.canReturn_log, canReturn_ret]

@[simp] theorem issues_ask : IssuesGiven allowed good (ask command) ↔
    ∀ reply, allowed command reply → good command := by
  constructor
  · intro h reply hallowed
    have hgood := h [(command, reply)] .stopped (by simpa using hallowed) (.request .stopped)
    simpa using hgood
  · intro h exchanges outcome hallowed hrun
    rcases runs_request_iff.mp hrun with ⟨rfl, -⟩ | ⟨reply, tail, rfl, hret⟩
    · simp
    · obtain ⟨rfl, -⟩ := runs_ret_iff.mp hret
      simpa using h reply (allAllowed_cons.mp hallowed).1

@[simp] theorem issues_succeeds : IssuesGiven allowed good (succeeds command) ↔
    ∀ reply, allowed command reply → good command := by
  rw [succeeds, issues_map, issues_ask]

@[simp] theorem issues_must : IssuesGiven allowed good (must command) ↔
    ∀ reply, allowed command reply → good command := by
  rw [must, issues_bind, issues_ask, and_iff_left]
  intro reply _
  split
  · exact issues_pure
  · exact issues_raise

@[simp] theorem issues_echo {message : String} : IssuesGiven allowed good (echo message) :=
  issues_log.mpr issues_ret

theorem returns_ask {Q : List (Command × Reply) → Reply → σ → Prop}
    (h : ∀ reply s', M s command reply s' → Q [(command, reply)] reply s') :
    Returns M s (ask command) Q :=
  returns_request fun reply s' hstep => returns_ret (h reply s' hstep)

theorem returns_succeeds {Q : List (Command × Reply) → Bool → σ → Prop}
    (h : ∀ reply s', M s command reply s' → Q [(command, reply)] reply.success s') :
    Returns M s (succeeds command) Q := by
  rw [succeeds, map_eq_pure_bind]
  refine (returns_ask (Q := fun exchanges reply s' => exchanges = [(command, reply)] ∧
    M s command reply s') fun reply s' hstep => ⟨rfl, hstep⟩).bind ?_
  rintro _ reply s' ⟨rfl, hstep⟩
  exact returns_ret (by simpa using h reply s' hstep)

end Rules

/-! ## What is seen -/

variable {system : System} {snapshots : Finset Nat}

/-- The reply to a command, as it is in this system where the ESP is reachable and these are the
snapshots. -/
def Seen (system : System) (snapshots : Finset Nat) (command : Command) (reply : Reply) : Prop :=
  match command with
  | .lsEfi => reply.success
  | .expandSnapshots => reply.numbers.Nodup ∧ ∀ number, number ∈ reply.numbers ↔ number ∈ snapshots
  | .expandKernels => reply.paths = system.kernels
  | .testDirectory path => (∀ number, path = snapshotDirectory number →
    (reply.success ↔ number ∈ snapshots)) ∧ (path = snapshotsDir → snapshots.Nonempty →
      reply.success)
  | .testFile path => reply.success = system.isFile path
  | .uname => reply.output = system.release
  | .find program => reply.success = system.hasProgram program
  | _ => True

/-- The machine that replies so. -/
def seen (system : System) (snapshots : Finset Nat) : Machine Command Reply Unit :=
  fun _ command reply _ => Seen system snapshots command reply

theorem replays_seen_iff {exchanges : List (Command × Reply)} :
    Replays (seen system snapshots) () exchanges () ↔
      AllAllowed (Seen system snapshots) exchanges := by
  induction exchanges with
  | nil => simp
  | cons x exchanges ih => simp [ih, seen]

theorem canReturn_of_replays {p : Script α} {value : α} {exchanges : List (Command × Reply)}
    (hrun : Runs p exchanges (.returned value))
    (hreplay : Replays (seen system snapshots) () exchanges ()) :
    CanReturn (Seen system snapshots) p value :=
  ⟨exchanges, replays_seen_iff.mp hreplay, hrun⟩

/-- The builds that were tried. -/
def attempts (exchanges : List (Command × Reply)) : List Build :=
  exchanges.filterMap fun x => x.1.build?

@[simp] theorem attempts_nil : attempts [] = [] := rfl

@[simp] theorem attempts_append {first second : List (Command × Reply)} :
    attempts (first ++ second) = attempts first ++ attempts second :=
  List.filterMap_append

/-- A command that builds nothing. -/
def IsQuiet (command : Command) : Prop := command.build? = none

theorem attempts_eq_nil {exchanges : List (Command × Reply)} (h : ∀ x ∈ exchanges, IsQuiet x.1) :
    attempts exchanges = [] :=
  List.filterMap_eq_nil_iff.mpr h

/-- In every run that returns, the UKIs of these snapshots are tried, in this order. -/
def Tries (system : System) (snapshots : Finset Nat) (p : Script α) (numbers : List Nat) : Prop :=
  Returns (seen system snapshots) () p fun exchanges _ _ =>
    (attempts exchanges).map Build.number = numbers

section Tries

variable {p : Script α} {β : Type} {f : α → Script β} {numbers numbers' : List Nat}

theorem tries_nothing (h : Issues IsQuiet p) : Tries system snapshots p [] := by
  intro exchanges value _ hrun _
  rw [attempts_eq_nil (h.of_runs hrun), List.map_nil]

theorem tries_build (build : Build) (h : command.build? = some build) :
    Tries system snapshots (succeeds command) [build.number] :=
  returns_succeeds fun reply _ _ => by simp [attempts, h]

@[simp] theorem tries_echo_bind {message : String} {f : Unit → Script β} :
    Tries system snapshots (echo message >>= f) numbers ↔
      Tries system snapshots (f ()) numbers := by
  simp [Tries, echo]

theorem Tries.bind (hp : Tries system snapshots p numbers)
    (hf : ∀ value, Tries system snapshots (f value) numbers') :
    Tries system snapshots (p >>= f) (numbers ++ numbers') := by
  refine Returns.bind hp fun first value _ hfirst => (hf value).mono fun second _ _ hsecond => ?_
  rw [attempts_append, List.map_append, hfirst, hsecond]

/-- What follows builds nothing. -/
theorem Tries.bind_quiet (hp : Tries system snapshots p numbers)
    (hf : ∀ value, Issues IsQuiet (f value)) : Tries system snapshots (p >>= f) numbers := by
  have h := hp.bind fun value => tries_nothing (hf value)
  rwa [List.append_nil] at h

/-- What comes first builds nothing. -/
theorem Tries.of_quiet (hp : Issues IsQuiet p)
    (hf : ∀ value, CanReturn (Seen system snapshots) p value →
      Tries system snapshots (f value) numbers) : Tries system snapshots (p >>= f) numbers := by
  have hquiet : Returns (seen system snapshots) () p fun exchanges value _ =>
      attempts exchanges = [] ∧ CanReturn (Seen system snapshots) p value :=
    fun exchanges value _ hrun hreplay => ⟨attempts_eq_nil (hp.of_runs hrun),
      canReturn_of_replays hrun hreplay⟩
  refine hquiet.bind fun first value _ hfirst => (hf value hfirst.2).mono ?_
  intro second _ _ hsecond
  rwa [attempts_append, hfirst.1, List.nil_append]

/-- A condition whose truth is known. -/
theorem tries_condition {known : Bool} {f : Bool → Script β} (hquiet : IsQuiet command)
    (hknown : ∀ reply, Seen system snapshots command reply → reply.success = known)
    (h : Tries system snapshots (f known) numbers) :
    Tries system snapshots (succeeds command >>= f) numbers := by
  refine .of_quiet (by simpa using fun _ => hquiet) fun found hfound => ?_
  obtain ⟨reply, hreply, rfl⟩ := canReturn_succeeds.mp hfound
  rwa [hknown reply hreply]

end Tries

/-! ## The kernel -/

variable {kernel preferredKernel : String}

/-- Two files that are looked for, one after the other. -/
theorem canReturn_both {path path' : String} {found : Bool}
    (h : CanReturn (Seen system snapshots) (do
      if ← succeeds (.testFile path) then succeeds (.testFile path') else pure false) found) :
    found = (system.isFile path && system.isFile path') := by
  obtain ⟨isFile, hfirst, hsecond⟩ := canReturn_bind.mp h
  obtain ⟨reply, hreply, rfl⟩ := canReturn_succeeds.mp hfirst
  rw [show reply.success = system.isFile path from hreply] at hsecond
  cases hpath : system.isFile path with
  | false => simpa [hpath] using hsecond
  | true =>
    rw [hpath, if_pos rfl] at hsecond
    obtain ⟨reply', hreply', rfl⟩ := canReturn_succeeds.mp hsecond
    exact hreply'

theorem canReturn_installedKernels {paths kernels : List String}
    (h : CanReturn (Seen system snapshots) (installedKernels paths) kernels) :
    kernels = (paths.filter fun path => system.isFile path &&
      system.isFile (initramfs (kernelName path))).map kernelName := by
  induction paths generalizing kernels with
  | nil => simpa [installedKernels] using h
  | cons path paths ih =>
    rw [installedKernels, canReturn_bind] at h
    obtain ⟨installed, hinstalled, hrest⟩ := h
    obtain ⟨later, hlater, hvalue⟩ := canReturn_bind.mp hrest
    rw [canReturn_pure, ih hlater] at hvalue
    rw [hvalue, List.filter_cons, ← canReturn_both hinstalled]
    cases installed <;> rfl

/-- In a system that stays the same, every refresh finds the same kernel. -/
theorem canReturn_getDefaultKernel {found : String}
    (h : CanReturn (Seen system snapshots) (getDefaultKernel preferredKernel) found) :
    found = system.kernel preferredKernel := by
  rw [getDefaultKernel, canReturn_bind] at h
  obtain ⟨release, hrelease, hrest⟩ := h
  rw [canReturn_ask] at hrelease
  rw [show release.output = system.release from hrelease] at hrest
  obtain ⟨running, hrunning, hrest⟩ := canReturn_bind.mp hrest
  rw [canReturn_both hrunning] at hrest
  unfold System.kernel
  split at hrest
  · next hboth =>
    rw [if_pos hboth]
    exact canReturn_pure.mp hrest
  · next hboth =>
    rw [if_neg hboth]
    obtain ⟨expansion, hexpansion, hrest⟩ := canReturn_bind.mp hrest
    rw [canReturn_ask] at hexpansion
    rw [show expansion.paths = system.kernels from hexpansion] at hrest
    obtain ⟨installed, hinstalled, hrest⟩ := canReturn_bind.mp hrest
    rw [← canReturn_installedKernels hinstalled]
    cases installed with
    | nil => exact canReturn_pure.mp hrest
    | cons kernel kernels => exact canReturn_pure.mp hrest

/-! ## One snapshot -/

/-- A command that looks at the system, or changes what no refresh looks at. -/
def Looks (command : Command) : Prop :=
  IsQuiet command ∧ (∀ path, command ≠ .rm path) ∧ ∀ path, command ≠ .touch path

theorem quiet_of_looks {p : Script α} (h : Issues Looks p) : Issues IsQuiet p :=
  h.mono fun _ hlooks => hlooks.1

section Looks

attribute [local simp] Looks IsQuiet Command.build?

theorem looks_installedKernels {paths : List String} : Issues Looks (installedKernels paths) := by
  induction paths with
  | nil => exact issues_pure
  | cons path paths ih => simp [installedKernels, isInstalled, ih]

theorem looks_getDefaultKernel : Issues Looks (getDefaultKernel preferredKernel) := by
  simp only [getDefaultKernel, hasKernel, issues_bind, issues_ask, issues_ite, issues_succeeds,
    looks_installedKernels, issues_pure]
  refine ⟨by simp, fun _ _ => ⟨by simp, fun found _ => ⟨fun _ => trivial, fun _ => ⟨by simp, ?_⟩⟩⟩⟩
  intro expansion _
  refine ⟨trivial, fun kernels _ => ?_⟩
  cases kernels <;> exact issues_pure

theorem looks_checkSecureBootSigning : Issues Looks checkSecureBootSigning := by
  simp [checkSecureBootSigning]

theorem looks_signFile {path : String} : Issues Looks (signFile path) := by
  simp [signFile, looks_checkSecureBootSigning]

theorem looks_makeWritable {number : Nat} : Issues Looks (makeWritable number) := by
  simp [makeWritable]

theorem looks_getSnapshotInfo {number : Nat} : Issues Looks (getSnapshotInfo number) := by
  simp [getSnapshotInfo]

theorem looks_formatDate {date : String} : Issues Looks (formatDate date) := by
  simp [formatDate]

theorem looks_microcode : Issues Looks microcode := by
  simp [microcode]

theorem looks_existingSnapshots {numbers : List Nat} :
    Issues Looks (existingSnapshots numbers) := by
  induction numbers with
  | nil => exact issues_pure
  | cons number numbers ih => simp [existingSnapshots, ih]

end Looks

variable {sources : CmdlineSources}

theorem tries_buildWithUkify {number : Nat} {cmdline osRelease : String} :
    Tries system snapshots (buildWithUkify number kernel cmdline osRelease) [number] := by
  refine .of_quiet (quiet_of_looks looks_microcode) fun ucode _ => .bind_quiet ?_ fun success => ?_
  · exact tries_build ⟨number, kernel, _, cmdline, osRelease⟩ rfl
  · split
    · exact issues_pure
    · exact issues_bind.mpr ⟨issues_echo, fun _ _ => issues_pure⟩

theorem tries_buildWithObjcopy {number : Nat} {cmdline osRelease : String} :
    Tries system snapshots (buildWithObjcopy number kernel cmdline osRelease)
      (if system.isFile efiStub then [number] else []) := by
  refine tries_condition rfl (fun _ h => h) ?_
  cases system.isFile efiStub with
  | false => exact tries_nothing (issues_bind.mpr ⟨issues_echo, fun _ _ => issues_pure⟩)
  | true =>
    refine .of_quiet (issues_ask.mpr fun _ _ => rfl) fun expansion _ => ?_
    refine .of_quiet (issues_succeeds.mpr fun _ _ => rfl) fun combined _ => ?_
    refine .bind_quiet ?_ fun success => ?_
    · exact tries_build ⟨number, kernel, _, cmdline, osRelease⟩ rfl
    · split
      · exact issues_pure
      · exact issues_bind.mpr ⟨issues_echo, fun _ _ => issues_pure⟩

theorem tries_buildUki {number : Nat} {cmdline osRelease : String} :
    Tries system snapshots (buildUki number kernel cmdline osRelease)
      (if system.hasProgram "ukify" || (system.hasProgram "objcopy" && system.isFile efiStub)
        then [number] else []) := by
  refine tries_condition rfl (fun _ h => h) ?_
  cases system.hasProgram "ukify" with
  | true => exact tries_buildWithUkify
  | false =>
    refine tries_condition rfl (fun _ h => h) ?_
    cases system.hasProgram "objcopy" with
    | true => exact tries_buildWithObjcopy
    | false => exact tries_nothing (issues_bind.mpr ⟨issues_echo, fun _ _ => issues_pure⟩)

/-- A snapshot's UKI is tried once, if anything can be built at all. -/
theorem tries_generateSnapshotUki {number : Nat} {cmdline date : String} :
    Tries system snapshots (generateSnapshotUki number kernel cmdline date)
      (if system.canBuild kernel then [number] else []) := by
  refine tries_condition rfl (fun _ h => h) ?_
  rw [System.canBuild]
  cases system.isFile (vmlinuz kernel) with
  | false => exact tries_nothing (issues_bind.mpr ⟨issues_echo, fun _ _ => issues_pure⟩)
  | true =>
    refine tries_condition rfl (fun _ h => h) ?_
    cases system.isFile (initramfs kernel) with
    | false => exact tries_nothing (issues_bind.mpr ⟨issues_echo, fun _ _ => issues_pure⟩)
    | true =>
      refine .of_quiet (quiet_of_looks looks_formatDate) fun formatted _ => tries_echo_bind.mpr ?_
      refine tries_buildUki.bind_quiet fun built => ?_
      split
      · simp [quiet_of_looks looks_signFile]
      · exact issues_pure

theorem tries_refreshSnapshot {number : Nat} :
    Tries system snapshots (refreshSnapshot sources kernel number)
      (if system.canBuild kernel then [number] else []) := by
  refine .of_quiet (quiet_of_looks looks_makeWritable) fun _ _ => ?_
  refine .of_quiet (quiet_of_looks looks_getSnapshotInfo) fun info _ => ?_
  refine tries_echo_bind.mpr (tries_generateSnapshotUki.bind_quiet fun created => ?_)
  split <;> simp

/-! ## All snapshots -/

theorem canReturn_existingSnapshots {numbers existing : List Nat}
    (h : CanReturn (Seen system snapshots) (existingSnapshots numbers) existing) :
    existing = numbers.filter (· ∈ snapshots) := by
  induction numbers generalizing existing with
  | nil => simpa [existingSnapshots] using h
  | cons number numbers ih =>
    rw [existingSnapshots, canReturn_bind] at h
    obtain ⟨isDirectory, hfirst, hrest⟩ := h
    obtain ⟨reply, hreply, rfl⟩ := canReturn_succeeds.mp hfirst
    obtain ⟨later, hlater, hvalue⟩ := canReturn_bind.mp hrest
    rw [canReturn_pure, ih hlater] at hvalue
    have hmem : reply.success ↔ number ∈ snapshots := hreply.1 number rfl
    rw [hvalue, List.filter_cons]
    simp only [hmem, decide_eq_true_eq]

/-- The loop tries the first snapshots of the list. -/
theorem tries_refreshNewest {maxSnapshots : Nat} {numbers : List Nat} (success count : Nat)
    (hnumbers : ∀ number ∈ numbers, number ∈ snapshots) :
    Tries system snapshots (refreshNewest sources kernel maxSnapshots count success numbers)
      (if system.canBuild kernel then numbers.take (maxSnapshots - count) else []) := by
  induction numbers generalizing success count with
  | nil =>
    rw [List.take_nil, ite_self]
    exact tries_nothing issues_pure
  | cons number numbers ih =>
    rw [List.forall_mem_cons] at hnumbers
    rw [refreshNewest]
    split
    · next hmax =>
      rw [Nat.sub_eq_zero_of_le hmax, List.take_zero, ite_self]
      exact tries_nothing issues_pure
    · next hmax =>
      have hcount : maxSnapshots - count = maxSnapshots - (count + 1) + 1 := by omega
      have hdirectory : ∀ reply, Seen system snapshots
          (.testDirectory (snapshotDirectory number)) reply → reply.success = true :=
        fun reply h => (h.1 number rfl).mpr hnumbers.1
      have hone : Tries system snapshots (refreshSnapshot sources kernel number)
          (if system.canBuild kernel then [number] else []) := tries_refreshSnapshot
      refine tries_condition rfl hdirectory ?_
      rw [hcount, List.take_succ_cons]
      have hboth := hone.bind fun created => ih (if created then success + 1 else success)
        (count + 1) hnumbers.2
      cases hbuild : system.canBuild kernel <;> simpa [hbuild] using hboth

/-! ## The newest snapshots -/

/-- Of a list from the newest to the oldest, the first are those than which few are newer. -/
theorem mem_take_iff {numbers : List Nat} (hsorted : numbers.Pairwise (· > ·))
    {count number : Nat} :
    number ∈ numbers.take count ↔
      number ∈ numbers ∧ (numbers.filter (number < ·)).length < count := by
  induction numbers generalizing count with
  | nil => simp
  | cons first numbers ih =>
    obtain ⟨hfirst, hrest⟩ := List.pairwise_cons.mp hsorted
    cases count with
    | zero => simp
    | succ count =>
      rw [List.take_succ_cons, List.mem_cons, List.mem_cons, ih hrest, List.filter_cons]
      by_cases hsame : number = first
      · subst hsame
        have hnone : numbers.filter (number < ·) = [] :=
          List.filter_eq_nil_iff.mpr fun later hlater => by simpa using (hfirst later hlater).le
        simp [hnone]
      · by_cases hmem : number ∈ numbers
        · simp [hmem, hsame, hfirst number hmem]
        · simp [hmem, hsame]

theorem mem_take_sort_iff {maxSnapshots number : Nat} :
    number ∈ (snapshots.sort (· ≥ ·)).take maxSnapshots ↔
      number ∈ newest maxSnapshots snapshots := by
  have hnewer : snapshots.filter (number < ·) =
      ((snapshots.sort (· ≥ ·)).filter (number < ·)).toFinset := by
    ext later
    simp
  have hcard : (snapshots.filter (number < ·)).card =
      ((snapshots.sort (· ≥ ·)).filter (number < ·)).length := by
    rw [hnewer, List.toFinset_card_of_nodup ((Finset.sort_nodup _ _).filter _)]
  rw [mem_take_iff (Finset.sortedGT_sort snapshots).pairwise, newest, Finset.mem_filter,
    Finset.mem_sort, hcard]

theorem sortedNumbers_eq {numbers : List Nat} (hnodup : numbers.Nodup)
    (hmem : ∀ number, number ∈ numbers ↔ number ∈ snapshots) :
    sortedNumbers numbers = snapshots.sort (· ≥ ·) := by
  have hperm : (sortedNumbers numbers).Perm (snapshots.sort (· ≥ ·)) := by
    refine (List.perm_insertionSort _ _).trans ((List.perm_ext_iff_of_nodup hnodup
      (Finset.sort_nodup _ _)).mpr fun number => ?_)
    rw [hmem, Finset.mem_sort]
  exact hperm.eq_of_pairwise (fun a b _ _ hab hba => Nat.le_antisymm hba hab)
    (List.pairwise_insertionSort _ _) (Finset.pairwise_sort _ _)

/-! ## All that a refresh builds -/

variable {maxSnapshots : Nat}

theorem tries_refreshSnapshots :
    Tries system snapshots (refreshSnapshots sources maxSnapshots kernel)
      (if system.canBuild kernel then (snapshots.sort (· ≥ ·)).take maxSnapshots else []) := by
  refine .of_quiet (issues_ask.mpr fun _ _ => rfl) fun expansion hexpansion => ?_
  obtain ⟨hnodup, hmem⟩ : Seen system snapshots .expandSnapshots expansion :=
    canReturn_ask.mp hexpansion
  refine .of_quiet (quiet_of_looks looks_existingSnapshots) fun numbers hnumbers => ?_
  have hall : expansion.numbers.filter (· ∈ snapshots) = expansion.numbers :=
    List.filter_eq_self.mpr fun number hnumber => by simpa using (hmem number).mp hnumber
  rw [canReturn_existingSnapshots hnumbers, hall]
  split
  · next hempty =>
    have hnone : snapshots.sort (· ≥ ·) = [] := by
      rw [← sortedNumbers_eq hnodup hmem, List.isEmpty_iff.mp hempty]
      rfl
    rw [hnone, List.take_nil, ite_self]
    exact tries_nothing issues_echo
  · rw [← sortedNumbers_eq hnodup hmem]
    refine .bind_quiet (tries_refreshNewest 0 0 fun number hnumber => ?_) fun _ => issues_echo
    exact (hmem number).mp ((List.perm_insertionSort _ _).mem_iff.mp hnumber)

theorem tries_rebuildUkis :
    Tries system snapshots (rebuildUkis sources preferredKernel maxSnapshots)
      (if system.canBuild (system.kernel preferredKernel) then
        (snapshots.sort (· ≥ ·)).take maxSnapshots else []) := by
  refine .of_quiet (issues_succeeds.mpr fun _ _ => rfl) fun isDirectory hdirectory => ?_
  obtain ⟨reply, hreply, rfl⟩ := canReturn_succeeds.mp hdirectory
  split
  · next hmissing =>
    have hnone : snapshots = ∅ := by
      by_contra hne
      have hsuccess := hreply.2 rfl (Finset.nonempty_iff_ne_empty.mpr hne)
      simp [hsuccess] at hmissing
    rw [hnone, Finset.sort_empty, List.take_nil, ite_self]
    exact tries_nothing issues_echo
  · refine .of_quiet (quiet_of_looks looks_getDefaultKernel) fun kernel hkernel => ?_
    refine tries_echo_bind.mpr ?_
    rw [canReturn_getDefaultKernel hkernel]
    refine .of_quiet (quiet_of_looks looks_checkSecureBootSigning) fun signing _ => ?_
    split
    · exact tries_echo_bind.mpr tries_refreshSnapshots
    · exact tries_echo_bind.mpr (tries_echo_bind.mpr tries_refreshSnapshots)

/-- What a refresh does once the UKIs are removed: it removes and marks nothing, and builds UKIs
of one kernel, each of which boots its own snapshot. -/
structure Rebuilds (sources : CmdlineSources) (kernel : String) (command : Command) : Prop where
  removes : ∀ path, command ≠ .rm path
  marks : ∀ path, command ≠ .touch path
  builds : ∀ build, command.build? = some build → build.kernel = kernel ∧
    build.cmdline = buildSnapshotCmdline sources (snapshotSubvolume build.number) "rw"

theorem Looks.rebuilds (h : Looks command) : Rebuilds sources kernel command :=
  ⟨h.2.1, h.2.2, fun build hbuild => by rw [h.1] at hbuild; cases hbuild⟩

theorem rebuilds_of_looks {p : Script α} {allowed : Command → Reply → Prop}
    (h : Issues Looks p) : IssuesGiven allowed (Rebuilds sources kernel) p :=
  fun _ _ _ hrun x hx => (h.of_runs hrun x hx).rebuilds

theorem rebuilds_of_build {build : Build} (h : command.build? = some build)
    (hkernel : build.kernel = kernel) (hcmdline : build.cmdline =
      buildSnapshotCmdline sources (snapshotSubvolume build.number) "rw") :
    Rebuilds sources kernel command := by
  refine ⟨?_, ?_, fun build' hbuild' => ?_⟩
  · rintro path rfl
    cases h
  · rintro path rfl
    cases h
  · rw [h] at hbuild'
    cases hbuild'
    exact ⟨hkernel, hcmdline⟩

section Rebuilds

variable {allowed : Command → Reply → Prop} {number : Nat} {osRelease : String}

attribute [local simp] Looks IsQuiet Command.build?

theorem rebuilds_buildWithUkify :
    IssuesGiven allowed (Rebuilds sources kernel) (buildWithUkify number kernel
      (buildSnapshotCmdline sources (snapshotSubvolume number) "rw") osRelease) := by
  rw [buildWithUkify, issues_bind]
  refine ⟨rebuilds_of_looks looks_microcode, fun ucode _ => ?_⟩
  simp only [issues_bind, issues_succeeds, issues_ite, issues_pure, issues_echo]
  exact ⟨fun _ _ => rebuilds_of_build rfl rfl rfl, by simp⟩

theorem rebuilds_buildWithObjcopy :
    IssuesGiven allowed (Rebuilds sources kernel) (buildWithObjcopy number kernel
      (buildSnapshotCmdline sources (snapshotSubvolume number) "rw") osRelease) := by
  simp only [buildWithObjcopy, issues_bind, issues_succeeds, issues_ite, issues_pure, issues_echo,
    issues_ask]
  refine ⟨fun _ _ => Looks.rebuilds (by simp), fun isFile _ => ⟨fun _ => ?_, by simp⟩⟩
  refine ⟨fun _ _ => Looks.rebuilds (by simp), fun expansion _ => ?_⟩
  refine ⟨fun _ _ => Looks.rebuilds (by simp), fun combined _ => ?_⟩
  exact ⟨fun _ _ => rebuilds_of_build rfl rfl rfl, by simp⟩

theorem rebuilds_buildUki :
    IssuesGiven allowed (Rebuilds sources kernel) (buildUki number kernel
      (buildSnapshotCmdline sources (snapshotSubvolume number) "rw") osRelease) := by
  simp only [buildUki, issues_bind, issues_succeeds, issues_ite, issues_pure, issues_echo,
    rebuilds_buildWithUkify, rebuilds_buildWithObjcopy]
  refine ⟨fun _ _ => Looks.rebuilds (by simp), fun ukify _ => ⟨fun _ => trivial, fun _ => ?_⟩⟩
  exact ⟨fun _ _ => Looks.rebuilds (by simp), by simp⟩

theorem rebuilds_generateSnapshotUki {date : String} :
    IssuesGiven allowed (Rebuilds sources kernel) (generateSnapshotUki number kernel
      (buildSnapshotCmdline sources (snapshotSubvolume number) "rw") date) := by
  simp only [generateSnapshotUki, issues_bind, issues_succeeds, issues_ite, issues_pure,
    issues_echo, rebuilds_buildUki, rebuilds_of_looks looks_signFile,
    rebuilds_of_looks looks_formatDate]
  refine ⟨fun _ _ => Looks.rebuilds (by simp), fun vmlinuz _ => ⟨by simp, fun _ => ?_⟩⟩
  exact ⟨fun _ _ => Looks.rebuilds (by simp), by simp⟩

theorem rebuilds_refreshSnapshot :
    IssuesGiven allowed (Rebuilds sources kernel) (refreshSnapshot sources kernel number) := by
  simp only [refreshSnapshot, issues_bind, issues_ite, issues_pure, issues_echo,
    rebuilds_generateSnapshotUki, rebuilds_of_looks looks_makeWritable,
    rebuilds_of_looks looks_getSnapshotInfo]
  simp

theorem rebuilds_refreshNewest {count success : Nat} {numbers : List Nat} :
    IssuesGiven allowed (Rebuilds sources kernel)
      (refreshNewest sources kernel maxSnapshots count success numbers) := by
  induction numbers generalizing count success with
  | nil => exact issues_pure
  | cons number numbers ih =>
    simp only [refreshNewest, issues_bind, issues_ite, issues_pure, issues_succeeds,
      rebuilds_refreshSnapshot, ih]
    exact ⟨fun _ => trivial, fun _ => ⟨fun _ _ => Looks.rebuilds (by simp), by simp⟩⟩

theorem rebuilds_refreshSnapshots :
    IssuesGiven allowed (Rebuilds sources kernel)
      (refreshSnapshots sources maxSnapshots kernel) := by
  simp only [refreshSnapshots, issues_bind, issues_ite, issues_ask, issues_echo,
    rebuilds_refreshNewest, rebuilds_of_looks looks_existingSnapshots]
  exact ⟨fun _ _ => Looks.rebuilds (by simp), by simp⟩

theorem rebuilds_rebuildUkis :
    IssuesGiven (Seen system snapshots) (Rebuilds sources (system.kernel preferredKernel))
      (rebuildUkis sources preferredKernel maxSnapshots) := by
  rw [rebuildUkis, issues_bind, issues_succeeds]
  refine ⟨fun _ _ => Looks.rebuilds (by simp), fun isDirectory _ => ?_⟩
  rw [issues_ite, issues_bind]
  refine ⟨fun _ => issues_echo, fun _ => ⟨rebuilds_of_looks looks_getDefaultKernel, ?_⟩⟩
  intro kernel hkernel
  rw [canReturn_getDefaultKernel hkernel]
  simp only [issues_bind, issues_ite, issues_echo, rebuilds_refreshSnapshots,
    rebuilds_of_looks looks_checkSecureBootSigning]
  simp

end Rebuilds

/-! ## The two phases -/

/-- What a refresh does up to the removal of the UKIs, and after it. -/
structure Phases (system : System) (sources : CmdlineSources) (preferredKernel : String)
    (maxSnapshots : Nat) (snapshots : Finset Nat) (first second : List (Command × Reply)) :
    Prop where
  quiet : attempts first = []
  removed : ∃ expansion, (.expandUkis, expansion) ∈ first ∧
    ∀ path ∈ expansion.paths, ∃ reply, (.rm path, reply) ∈ first
  tried : (attempts second).map Build.number = if system.canBuild (system.kernel preferredKernel)
    then (snapshots.sort (· ≥ ·)).take maxSnapshots else []
  rebuilds : ∀ x ∈ second, Rebuilds sources (system.kernel preferredKernel) x.1

/-- Every build is of one of the newest snapshots, for the one kernel, and boots the snapshot. -/
theorem Phases.build {first second : List (Command × Reply)} {build : Build}
    (h : Phases system sources preferredKernel maxSnapshots snapshots first second)
    (hbuild : build ∈ attempts (first ++ second)) :
    build ∈ attempts second ∧ build.number ∈ newest maxSnapshots snapshots ∧
      build.kernel = system.kernel preferredKernel ∧
        build.cmdline = buildSnapshotCmdline sources (snapshotSubvolume build.number) "rw" := by
  rw [attempts_append, h.quiet, List.nil_append] at hbuild
  obtain ⟨x, hx, hcommand⟩ := List.mem_filterMap.mp hbuild
  have htried : build.number ∈ (attempts second).map Build.number := List.mem_map_of_mem hbuild
  rw [h.tried] at htried
  split at htried
  · exact ⟨hbuild, mem_take_sort_iff.mp htried, (h.rebuilds x hx).builds build hcommand⟩
  · cases htried

/-- Each of the newest snapshots is tried. -/
theorem Phases.exists_attempt {first second : List (Command × Reply)} {number : Nat}
    (h : Phases system sources preferredKernel maxSnapshots snapshots first second)
    (hcan : system.canBuild (system.kernel preferredKernel))
    (hnumber : number ∈ newest maxSnapshots snapshots) :
    ∃ x ∈ second, ∃ build, x.1.build? = some build ∧ build.number = number := by
  have htried := h.tried
  rw [if_pos hcan] at htried
  obtain ⟨build, hbuild, rfl⟩ := List.mem_map.mp (htried ▸ mem_take_sort_iff.mpr hnumber)
  obtain ⟨x, hx, hcommand⟩ := List.mem_filterMap.mp hbuild
  exact ⟨x, hx, build, hcommand, rfl⟩

theorem Phases.nodup {first second : List (Command × Reply)}
    (h : Phases system sources preferredKernel maxSnapshots snapshots first second) :
    ((attempts second).map Build.number).Nodup := by
  rw [h.tried]
  split
  · exact (Finset.sort_nodup _ _).sublist (List.take_sublist _ _)
  · exact List.nodup_nil

theorem runs_ask_returned_iff {command : Command} {exchanges : List (Command × Reply)}
    {reply : Reply} :
    Runs (ask command) exchanges (.returned reply) ↔ exchanges = [(command, reply)] := by
  constructor
  · intro hrun
    rcases runs_request_iff.mp hrun with ⟨-, ⟨⟩⟩ | ⟨answer, tail, rfl, hret⟩
    obtain ⟨rfl, hreply⟩ := runs_ret_iff.mp hret
    obtain rfl : reply = answer := by simpa using hreply
    rfl
  · rintro rfl
    exact .request .ret

theorem runs_forEach_rm {paths : List String} {exchanges : List (Command × Reply)}
    (hrun : Runs (Program.forEach paths fun path => do
      let _ ← ask (.rm path)) exchanges (.returned ())) :
    ∀ path ∈ paths, ∃ reply, (.rm path, reply) ∈ exchanges := by
  induction paths generalizing exchanges with
  | nil => simp
  | cons path paths ih =>
    rw [Program.forEach, bind_assoc] at hrun
    obtain ⟨first, reply, second, rfl, hfirst, hsecond⟩ := runs_bind_returned_iff.mp hrun
    obtain rfl := runs_ask_returned_iff.mp hfirst
    rw [pure_bind] at hsecond
    intro path' hpath'
    rcases List.mem_cons.mp hpath' with rfl | hpath'
    · exact ⟨reply, by simp⟩
    · obtain ⟨reply', hreply'⟩ := ih hsecond path' hpath'
      exact ⟨reply', List.mem_append_right _ hreply'⟩

theorem exists_phases {exchanges : List (Command × Reply)}
    (hrun : Runs (refreshEntries sources preferredKernel maxSnapshots) exchanges (.returned ()))
    (hallowed : AllAllowed (Seen system snapshots) exchanges) : ∃ first second,
      exchanges = first ++ second ∧
        Phases system sources preferredKernel maxSnapshots snapshots first second := by
  have hprogram : refreshEntries sources preferredKernel maxSnapshots =
      .log s!"Refreshing snapshot UKIs (last {maxSnapshots})..."
        (succeeds .lsEfi >>= fun reachable =>
        if !reachable then postponeRefresh else do
          must (.rm refreshPendingMarker)
          must (.mkdir ukiDir)
          removeUkis
          rebuildUkis sources preferredKernel maxSnapshots) := rfl
  rw [hprogram, runs_log_iff] at hrun
  obtain ⟨ls, reachable, rest, rfl, hls, hrest⟩ := runs_bind_returned_iff.mp hrun
  rw [allAllowed_append] at hallowed
  obtain ⟨reply, hreply, rfl⟩ := canReturn_succeeds.mp ⟨ls, hallowed.1, hls⟩
  rw [show reply.success = true from hreply, Bool.not_true, if_neg Bool.false_ne_true] at hrest
  obtain ⟨marker, _, rest, rfl, hmarker, hrest⟩ := runs_bind_returned_iff.mp hrest
  obtain ⟨directory, _, rest, rfl, hdirectory, hrest⟩ := runs_bind_returned_iff.mp hrest
  obtain ⟨removal, _, second, rfl, hremoval, hsecond⟩ := runs_bind_returned_iff.mp hrest
  simp only [allAllowed_append] at hallowed
  have hlook : Issues IsQuiet (succeeds .lsEfi) := issues_succeeds.mpr fun _ _ => rfl
  have hmust : Issues IsQuiet (must (.rm refreshPendingMarker)) := issues_must.mpr fun _ _ => rfl
  have hmkdir : Issues IsQuiet (must (.mkdir ukiDir)) := issues_must.mpr fun _ _ => rfl
  have hremove : Issues IsQuiet removeUkis := by simp [removeUkis, IsQuiet, Command.build?]
  have hquiet : ∀ x ∈ ls ++ (marker ++ (directory ++ removal)), IsQuiet x.1 := by
    simp only [List.forall_mem_append]
    exact ⟨hlook.of_runs hls, hmust.of_runs hmarker, hmkdir.of_runs hdirectory,
      hremove.of_runs hremoval⟩
  refine ⟨ls ++ (marker ++ (directory ++ removal)), second, by simp, attempts_eq_nil hquiet,
    ?_, ?_, ?_⟩
  · obtain ⟨expand, expansion, loop, rfl, hexpand, hloop⟩ := runs_bind_returned_iff.mp hremoval
    obtain rfl := runs_ask_returned_iff.mp hexpand
    refine ⟨expansion, by simp, fun path hpath => ?_⟩
    obtain ⟨reply', hreply'⟩ := runs_forEach_rm hloop path hpath
    exact ⟨reply', by simp [hreply']⟩
  · exact tries_rebuildUkis second () () hsecond (replays_seen_iff.mpr hallowed.2.2.2.2)
  · exact rebuilds_rebuildUkis second _ hallowed.2.2.2.2 hsecond
end ArchInstaller.SnapshotEntries.Refresh
