import ArchInstaller.Verify.SettledRefresh
import Mathlib.Logic.Relation

/-! # The pending marker

A refresh that finds the drive away leaves a marker, and the drive that is plugged in starts another
one where it is. No refresh that found the drive away is lost then; one that loses the drive on its
way is, since it takes the marker away first. -/

namespace ArchInstaller.SnapshotEntries.Refresh

open Interaction PyText

variable {system : System} {sources : CmdlineSources} {preferredKernel path : String}
  {maxSnapshots : Nat} {s s' : State} {exchanges : List (Command × Reply)}

/-! ## The two ways of a refresh -/

/-- What a refresh does that found the drive and took the marker away. -/
def renewUkis (sources : CmdlineSources) (preferredKernel : String) (maxSnapshots : Nat) :
    Script Unit := do
  must (.mkdir ukiDir)
  removeUkis
  rebuildUkis sources preferredKernel maxSnapshots

theorem runs_refreshEntries {outcome : Outcome Shell.Exit Unit}
    (hrun : Runs (refreshEntries sources preferredKernel maxSnapshots) exchanges outcome) :
    exchanges = [] ∧ outcome = .stopped ∨ ∃ ls rest, exchanges = (.lsEfi, ls) :: rest ∧
      Runs (if ls.success then
          must (.rm refreshPendingMarker) >>= fun _ =>
            renewUkis sources preferredKernel maxSnapshots
        else postponeRefresh) rest outcome := by
  have hprogram : refreshEntries sources preferredKernel maxSnapshots =
      .log s!"Refreshing snapshot UKIs (last {maxSnapshots})..." (.request .lsEfi fun ls =>
        if !ls.success then postponeRefresh
        else must (.rm refreshPendingMarker) >>= fun _ =>
          renewUkis sources preferredKernel maxSnapshots) := rfl
  rw [hprogram, runs_log_iff, runs_request_iff] at hrun
  rcases hrun with hstopped | ⟨ls, rest, rfl, hrest⟩
  · exact .inl hstopped
  · refine .inr ⟨ls, rest, rfl, ?_⟩
    cases hsuccess : ls.success with
    | true => simpa [hsuccess] using hrest
    | false => simpa [hsuccess] using hrest

theorem runs_must_returned {command : Command}
    (hrun : Runs (must command) exchanges (.returned ())) :
    ∃ reply, exchanges = [(command, reply)] ∧ reply.success := by
  obtain ⟨first, reply, rest, rfl, hfirst, hrest⟩ := runs_bind_returned_iff.mp hrun
  obtain rfl := runs_ask_returned_iff.mp hfirst
  split at hrest
  · next hsuccess =>
    obtain ⟨rfl, -⟩ := runs_pure_iff.mp hrest
    exact ⟨reply, rfl, hsuccess⟩
  · simp [runs_raise_iff] at hrest

theorem length_le_of_runs_must {command : Command} {outcome : Outcome Shell.Exit Unit}
    (hrun : Runs (must command) exchanges outcome) : exchanges.length ≤ 1 := by
  have hprogram : must command = .request command fun reply =>
    if reply.success then .ret () else .raise ⟨reply.status⟩ := rfl
  rw [hprogram, runs_request_iff] at hrun
  rcases hrun with ⟨rfl, -⟩ | ⟨reply, tail, rfl, hrest⟩
  · exact Nat.zero_le 1
  · split at hrest
    · rw [(runs_ret_iff.mp hrest).1, List.length_singleton]
    · rw [(runs_raise_iff.mp hrest).1, List.length_singleton]

/-- One that found the drive away and comes to its end has left the marker. -/
theorem runs_postponeRefresh (hrun : Runs postponeRefresh exchanges (.returned ())) :
    ∃ directory touch, exchanges = [(.mkdir "/var/lib/manage-snapshot-ukis", directory),
      (.touch refreshPendingMarker, touch)] ∧ touch.success := by
  obtain ⟨_, _, rest, rfl, hecho, hrest⟩ := runs_bind_returned_iff.mp hrun
  obtain ⟨rfl, -⟩ := runs_ret_iff.mp (runs_log_iff.mp hecho)
  obtain ⟨_, _, _, rfl, hdirectory, htouch⟩ := runs_bind_returned_iff.mp hrest
  obtain ⟨directory, rfl, -⟩ := runs_must_returned hdirectory
  obtain ⟨touch, rfl, hsuccess⟩ := runs_must_returned htouch
  exact ⟨directory, touch, rfl, hsuccess⟩

/-- The removal of the marker. -/
def Unmarks (command : Command) : Prop := command = .rm refreshPendingMarker

/-- The UKIs are other files than the marker. -/
def Apart (command : Command) (reply : Reply) : Prop :=
  command = .expandUkis → refreshPendingMarker ∉ reply.paths

theorem apart_of_world {command : Command} {reply : Reply}
    (h : world system s command reply s') : Apart command reply := by
  rintro rfl hmem
  exact ne_marker_of_isSnapshotUki ((h.2 _).mp hmem).2.1 rfl

theorem issues_rebuildUkis {allowed : Command → Reply → Prop} :
    IssuesGiven allowed (¬ Unmarks ·) (rebuildUkis sources preferredKernel maxSnapshots) := by
  have hlooks : ∀ {α : Type} {p : Script α}, Issues Looks p →
      IssuesGiven allowed (¬ Unmarks ·) p := fun h exchanges outcome _ hrun x hx =>
    (h.of_runs hrun x hx).2.1 _
  rw [rebuildUkis, issues_bind, issues_succeeds]
  refine ⟨by simp [Unmarks], fun isDirectory _ => ?_⟩
  rw [issues_ite, issues_bind]
  refine ⟨fun _ => issues_echo, fun _ => ⟨hlooks looks_getDefaultKernel, fun kernel _ => ?_⟩⟩
  have hrefresh : IssuesGiven allowed (¬ Unmarks ·)
      (refreshSnapshots sources maxSnapshots kernel) :=
    rebuilds_refreshSnapshots.mono fun command h => h.removes _
  simp [hrefresh, hlooks looks_checkSecureBootSigning]

theorem issues_renewUkis :
    IssuesGiven Apart (¬ Unmarks ·) (renewUkis sources preferredKernel maxSnapshots) := by
  simp only [renewUkis, issues_bind, issues_must, removeUkis, issues_ask, issues_rebuildUkis]
  refine ⟨by simp [Unmarks], fun _ _ => ⟨⟨by simp [Unmarks], fun expansion hexpansion => ?_⟩,
    fun _ _ => trivial⟩⟩
  refine IssuesGiven.forEach fun path hpath => ?_
  simp only [issues_bind, issues_ask, issues_pure]
  refine ⟨fun _ _ hmarker => ?_, fun _ _ => trivial⟩
  obtain rfl : path = refreshPendingMarker := by simpa [Unmarks] using hmarker
  exact canReturn_ask.mp hexpansion rfl hpath

/-- Where only the first request can be of a kind, nothing is done before it. -/
theorem eq_nil_of_split {P : Command × Reply → Prop}
    {first second before after : List (Command × Reply)}
    {x : Command × Reply} (hsplit : first ++ second = before ++ x :: after) (hx : P x)
    (hfirst : first.length ≤ 1) (hsecond : ∀ y ∈ second, ¬ P y) : before = [] := by
  rcases List.append_eq_append_iff.mp hsplit with ⟨middle, rfl, rfl⟩ | ⟨middle, rfl, hmiddle⟩
  · exact absurd hx (hsecond x (by simp))
  · cases middle with
    | nil => exact absurd hx (hsecond x (by rw [← List.nil_append second, ← hmiddle]; simp))
    | cons y middle =>
      rw [List.length_append, List.length_cons] at hfirst
      exact List.eq_nil_of_length_eq_zero (by omega)

theorem eq_nil_of_runs_unmarks {outcome : Outcome Shell.Exit Unit}
    (hrun : Runs (must (.rm refreshPendingMarker) >>= fun _ =>
      renewUkis sources preferredKernel maxSnapshots) exchanges outcome)
    (hapart : AllAllowed Apart exchanges) {before after : List (Command × Reply)} {reply : Reply}
    (hsplit : exchanges = before ++ (.rm refreshPendingMarker, reply) :: after) : before = [] := by
  rcases runs_bind_iff.mp hrun with
    ⟨first, _, second, rfl, hfirst, hsecond⟩ | ⟨error, hraised, -⟩ | ⟨hstopped, -⟩
  · exact eq_nil_of_split (P := fun x => Unmarks x.1) hsplit rfl (length_le_of_runs_must hfirst)
      (issues_renewUkis second outcome (allAllowed_append.mp hapart).2 hsecond)
  · exact eq_nil_of_split (P := fun x => Unmarks x.1) ((List.append_nil _).trans hsplit) rfl
      (length_le_of_runs_must hraised) (by simp)
  · exact eq_nil_of_split (P := fun x => Unmarks x.1) ((List.append_nil _).trans hsplit) rfl
      (length_le_of_runs_must hstopped) (by simp)

/-- The marker goes once, right after the drive was found. -/
theorem runs_unmarks {outcome : Outcome Shell.Exit Unit}
    (hrun : Runs (refreshEntries sources preferredKernel maxSnapshots) exchanges outcome)
    (hapart : AllAllowed Apart exchanges) {before after : List (Command × Reply)} {reply : Reply}
    (hsplit : exchanges = before ++ (.rm refreshPendingMarker, reply) :: after) :
    ∃ ls, before = [(.lsEfi, ls)] ∧ ls.success := by
  rcases runs_refreshEntries hrun with ⟨rfl, -⟩ | ⟨ls, rest, rfl, hrest⟩
  · simp at hsplit
  cases before with
  | nil => simp at hsplit
  | cons x before =>
    rw [List.cons_append, List.cons.injEq] at hsplit
    obtain ⟨rfl, rfl⟩ := hsplit
    refine ⟨ls, ?_⟩
    split at hrest
    · next hsuccess =>
      rw [eq_nil_of_runs_unmarks hrest (allAllowed_cons.mp hapart).2 rfl]
      exact ⟨rfl, hsuccess⟩
    · have hpostpone : Issues (¬ Unmarks ·) postponeRefresh := by
        simp [postponeRefresh, Unmarks]
      exact absurd rfl (hpostpone.of_runs hrest (.rm refreshPendingMarker, reply)
        (by simp))

/-! ## Refreshes at any time -/

section

variable {τ : Type} {history : Interleaving τ Command Reply Event}

/-- Only a removal takes the marker away. -/
theorem marker_of_step {o : Occurrence τ Command Reply Event}
    (h : o.Step (world system) Event.Step s s') (hmarker : s.marker)
    (hnot : ∀ who reply, o ≠ .did who (.rm refreshPendingMarker) reply) : s'.marker := by
  cases o with
  | happened event =>
    cases event with
    | plug | pull =>
      obtain rfl := h
      exact hmarker
    | create | describe | delete =>
      obtain ⟨-, rfl⟩ := h
      exact hmarker
  | did who command reply =>
    rcases world_cases h with ⟨rfl, -⟩ | ⟨-, rfl⟩ | ⟨path, rfl, -, rfl⟩ | ⟨build, -, hbuild⟩
    · exact hmarker
    · rfl
    · rcases s.remove_cases path with ⟨rfl, -⟩ | ⟨-, -, hremove⟩ | ⟨-, -, hremove⟩
      · exact absurd rfl (hnot who reply)
      · rwa [hremove]
      · rwa [hremove]
    · rcases hbuild.cases with ⟨rfl, -⟩ | ⟨file, rfl, -⟩
      · exact hmarker
      · exact hmarker

theorem apart_of_proceeds [DecidableEq τ] (h : Proceeds (world system) Event.Step s history s')
    (who : τ) : AllAllowed Apart (exchangesOf who history) := by
  intro x hx
  obtain ⟨before, after, rfl⟩ := List.append_of_mem (mem_exchangesOf.mp hx)
  obtain ⟨here, next, -, hstep, -⟩ := h.split
  exact apart_of_world hstep

/-- A refresh that finds the drive away leaves the marker as the last thing it does. -/
theorem exists_touch {exchanges rest : List (Command × Reply)} {ls : Reply}
    (haway : exchanges = (.lsEfi, ls) :: rest ∧ ¬ ls.success)
    (hreturned : Runs (refreshEntries sources preferredKernel maxSnapshots) exchanges
      (.returned ())) :
    ∃ first touch, exchanges = first ++ (.touch refreshPendingMarker, touch) :: [] ∧
      touch.success := by
  obtain ⟨hexchanges, hfailed⟩ := haway
  rcases runs_refreshEntries hreturned with ⟨-, ⟨⟩⟩ | ⟨ls', rest', hcons, hpostponed⟩
  obtain ⟨⟨-, rfl⟩, rfl⟩ := by simpa using hexchanges.symm.trans hcons
  rw [if_neg hfailed] at hpostponed
  obtain ⟨directory, touch, rfl, hsuccess⟩ := runs_postponeRefresh hpostponed
  exact ⟨[(.lsEfi, ls), (.mkdir "/var/lib/manage-snapshot-ukis", directory)], touch, hcons,
    hsuccess⟩

/-- However refreshes overlap, and whenever the drive is plugged in or pulled: after one that found
the drive away, the marker is there, or another one found the drive and took the marker away, which
had done nothing else before. -/
theorem marker_or_other [DecidableEq τ]
    (hproceeds : Proceeds (world system) Event.Step s history s')
    (hruns : ∀ who, ∃ outcome, Runs (refreshEntries sources preferredKernel maxSnapshots)
      (exchangesOf who history) outcome) {who : τ} {ls : Reply} {rest : List (Command × Reply)}
    (haway : exchangesOf who history = (.lsEfi, ls) :: rest ∧ ¬ ls.success)
    (hreturned : Runs (refreshEntries sources preferredKernel maxSnapshots)
      (exchangesOf who history) (.returned ())) :
    s'.marker ∨ ∃ before other reply after touch found,
      history = before ++ .did other (.rm refreshPendingMarker) reply :: after ∧
        .did who (.touch refreshPendingMarker) touch ∈ before ∧
        exchangesOf other before = [(.lsEfi, found)] ∧ found.success := by
  obtain ⟨first, touch, hsplit, hsuccess⟩ := exists_touch haway hreturned
  obtain ⟨before, after, rfl, -, -⟩ := exists_did_of_exchangesOf hsplit
  obtain ⟨here, next, -, hstep, hafter⟩ := hproceeds.split
  have hmarker : next.marker := by
    obtain rfl : next = { here with marker := true } := by
      simpa [Occurrence.Step, world, hsuccess] using hstep
    rfl
  by_cases hremoved : ∃ o ∈ after, ∃ other reply, o = .did other (.rm refreshPendingMarker) reply
  · obtain ⟨_, ho, other, reply, rfl⟩ := hremoved
    obtain ⟨between, later, rfl⟩ := List.append_of_mem ho
    obtain ⟨outcome, hrun⟩ := hruns other
    have hparts : before ++ .did who (.touch refreshPendingMarker) touch :: (between ++
        .did other (.rm refreshPendingMarker) reply :: later) =
      (before ++ .did who (.touch refreshPendingMarker) touch :: between) ++
        .did other (.rm refreshPendingMarker) reply :: later := by simp
    have hexchanges : exchangesOf other (before ++ .did who (.touch refreshPendingMarker) touch ::
        (between ++ .did other (.rm refreshPendingMarker) reply :: later)) =
      exchangesOf other (before ++ .did who (.touch refreshPendingMarker) touch :: between) ++
        (.rm refreshPendingMarker, reply) :: exchangesOf other later := by
      rw [hparts, exchangesOf_did]
    have hdone := runs_unmarks hrun (apart_of_proceeds hproceeds other) hexchanges
    obtain ⟨found, hbefore, hfound⟩ := hdone
    exact .inr ⟨_, other, reply, later, touch, found, hparts, by simp, hbefore, hfound⟩
  · refine .inl (hafter.preserves (P := fun s => s.marker) (fun o ho mid mid' hmid hstep' => ?_)
      hmarker)
    exact marker_of_step hstep' hmid fun other reply heq => hremoved ⟨o, ho, other, reply, heq⟩

/-- One refresh that finds the drive away. -/
theorem marker_alone : ∃ s' : State, s'.marker := by
  have hlisted : Listed [1, 2] [] { twoSnapshots with reachable := false } :=
    ⟨by decide, fun _ h => absurd rfl h, fun _ _ h => absurd rfl h⟩
  obtain ⟨exchanges, s', hrun, hreplay, ⟨ls, rest, hls, haway⟩, hnot⟩ : ∃ exchanges s',
      Runs (refreshEntries quietCmdline "" 1) exchanges (.returned ()) ∧
        Replays (world standardSystem) { twoSnapshots with reachable := false } exchanges s' ∧
        (∃ ls rest, exchanges = (.lsEfi, ls) :: rest ∧ ¬ ls.success) ∧
        ∀ x ∈ exchanges, ¬ Unmarks x.1 :=
    ⟨_, _, runs_execute, (replays_execute (I := Listed [1, 2] [])
      (fun _ command hs => world_respond (by decide) hs command) hlisted).1,
      ⟨_, _, rfl, by decide⟩, by unfold Unmarks; decide⟩
  have halone : exchangesOf () (exchanges.map fun x => .did () x.1 x.2 :
      Interleaving Unit Command Reply Event) = exchanges := exchangesOf_alone
  have hstart := halone.symm ▸ hrun
  rcases marker_or_other hreplay.proceeds (fun _ => ⟨_, hstart⟩)
    ⟨halone.trans hls, haway⟩ hstart with
      hmarker | ⟨before, other, reply, after, touch, found, hsplit, -⟩
  · exact ⟨s', hmarker⟩
  · have hmem : .did other (.rm refreshPendingMarker) reply ∈
        before ++ .did other (.rm refreshPendingMarker) reply :: after := by simp
    rw [← hsplit] at hmem
    obtain ⟨x, hx, heq⟩ := List.mem_map.mp hmem
    rw [Occurrence.did.injEq] at heq
    exact absurd heq.2.1 (hnot x hx)

end

/-! ## At rest -/

/-- A refresh that comes to its end, with the drive where it is all the time; every `rm` and every
build does its work. -/
structure Refreshed (system : System) (sources : CmdlineSources) (preferredKernel : String)
    (maxSnapshots : Nat) (s s' : State) : Prop where
  exists_run : ∃ exchanges,
    Runs (refreshEntries sources preferredKernel maxSnapshots) exchanges (.returned ()) ∧
      Replays (world system) s exchanges s' ∧
      (∀ path reply, (.rm path, reply) ∈ exchanges → reply.success) ∧
      ∀ x ∈ exchanges, x.1.build? ≠ none → x.2.success

def Event.isChange : Event → Bool
  | .create _ | .describe .. | .delete _ => true
  | .plug | .pull => false

/-- What the system does from one rest to the next. -/
inductive Life (system : System) (sources : CmdlineSources) (preferredKernel : String)
    (maxSnapshots : Nat) : State → State → Prop
  /-- `snapshot-ukis-catch-up.service` is started and goes on where the marker is there. -/
  | plug {s s' : State} :
    (if s.marker then
      Refreshed system sources preferredKernel maxSnapshots { s with reachable := true } s'
    else s' = { s with reachable := true }) → Life system sources preferredKernel maxSnapshots s s'
  | pull {s : State} :
    Life system sources preferredKernel maxSnapshots s { s with reachable := false }
  /-- `snapper-boot-entries.service` refreshes after the snapshots changed. -/
  | change {s mid s' : State} {events : List Event} : (∀ event ∈ events, event.isChange) →
    Proceeds (world system) Event.Step s (events.map .happened : Interleaving Unit _ _ _) mid →
    Refreshed system sources preferredKernel maxSnapshots mid s' →
    Life system sources preferredKernel maxSnapshots s s'

/-- The UKIs are those of the newest snapshots, and boot them. -/
structure UpToDate (system : System) (sources : CmdlineSources) (preferredKernel : String)
    (maxSnapshots : Nat) (s : State) : Prop where
  only : ∀ path, isSnapshotUki path → s.ukis path ≠ none →
    ∃ number ∈ newest maxSnapshots s.snapshots,
      path = snapshotUki number (system.kernel preferredKernel)
  whole : ∀ number ∈ newest maxSnapshots s.snapshots, ∃ build,
    s.ukis (snapshotUki number (system.kernel preferredKernel)) = some (.whole build) ∧
      build.number = number ∧ build.kernel = system.kernel preferredKernel ∧
        build.cmdline = buildSnapshotCmdline sources (snapshotSubvolume number) "rw"

/-- Nothing is owed to a drive that is plugged in, and to one that is away only what the marker
says. -/
structure AtRest (system : System) (sources : CmdlineSources) (preferredKernel : String)
    (maxSnapshots : Nat) (s : State) : Prop where
  here : s.reachable → UpToDate system sources preferredKernel maxSnapshots s
  away : s.marker ∨ UpToDate system sources preferredKernel maxSnapshots s

theorem frame_of_replays (h : Replays (world system) s exchanges s') :
    s'.reachable = s.reachable ∧ s'.snapshots = s.snapshots := by
  refine h.preserves (P := fun state => state.reachable = s.reachable ∧
    state.snapshots = s.snapshots) (fun x _ mid mid' hmid hstep => ?_) ⟨rfl, rfl⟩
  obtain ⟨hreach, hsnapshots⟩ := world_frame hstep
  exact ⟨hreach.trans hmid.1, hsnapshots.trans hmid.2⟩

/-- A refresh leaves what is owed to nobody, or the marker. -/
theorem Refreshed.atRest (h : Refreshed system sources preferredKernel maxSnapshots s s')
    (hcan : system.canBuild (system.kernel preferredKernel)) :
    s'.reachable = s.reachable ∧ AtRest system sources preferredKernel maxSnapshots s' := by
  obtain ⟨exchanges, hrun, hreplay, hremoves, hbuilds⟩ := h
  obtain ⟨hreach, hsnapshots⟩ := frame_of_replays hreplay
  refine ⟨hreach, ?_⟩
  cases hhere : s.reachable with
  | true =>
    have halone : Alone system sources preferredKernel maxSnapshots s exchanges s' :=
      ⟨hrun, hreplay, hhere, hremoves⟩
    obtain ⟨honly, hwhole⟩ := overlap_exact halone.overlap hcan
    have hupToDate : UpToDate system sources preferredKernel maxSnapshots s' := by
      rw [← hsnapshots] at honly hwhole
      refine ⟨honly, fun number hnumber => hwhole number hnumber ?_⟩
      intro () command reply build hmem hcommand _
      obtain ⟨x, hx, heq⟩ := List.mem_map.mp hmem
      rw [Occurrence.did.injEq] at heq
      obtain ⟨-, rfl, rfl⟩ := heq
      exact hbuilds x hx (by simp [hcommand])
    exact ⟨fun _ => hupToDate, .inr hupToDate⟩
  | false =>
    have hmarker : s'.marker := by
      rcases runs_refreshEntries hrun with ⟨-, ⟨⟩⟩ | ⟨ls, rest, rfl, hrest⟩
      obtain ⟨mid, ⟨hmid, hls⟩, hrested⟩ := replays_cons_iff.mp hreplay
      obtain rfl : mid = s := hmid
      have hfailed : ¬ ls.success := by
        rw [show ls.success = mid.reachable from hls, hhere]
        exact Bool.false_ne_true
      rw [if_neg hfailed] at hrest
      obtain ⟨directory, touch, rfl, hsuccess⟩ := runs_postponeRefresh hrest
      obtain ⟨next, -, htouch⟩ := replays_cons_iff.mp hrested
      obtain ⟨last, hlast, hend⟩ := replays_cons_iff.mp htouch
      obtain rfl := replays_nil_iff.mp hend
      obtain rfl : s' = { next with marker := true } := by simpa [world, hsuccess] using hlast
      rfl
    exact ⟨fun hthere => by simp [hreach, hhere] at hthere, .inl hmarker⟩

theorem Life.atRest (h : Life system sources preferredKernel maxSnapshots s s')
    (hcan : system.canBuild (system.kernel preferredKernel))
    (hs : AtRest system sources preferredKernel maxSnapshots s) :
    AtRest system sources preferredKernel maxSnapshots s' := by
  cases h with
  | plug hcatchUp =>
    split at hcatchUp
    · exact (hcatchUp.atRest hcan).2
    · next hmarker =>
      subst hcatchUp
      have hupToDate := hs.away.resolve_left hmarker
      exact ⟨fun _ => ⟨hupToDate.only, hupToDate.whole⟩, .inr ⟨hupToDate.only, hupToDate.whole⟩⟩
  | pull =>
    refine ⟨fun hthere => by simp at hthere, hs.away.imp_right fun hupToDate => ?_⟩
    exact ⟨hupToDate.only, hupToDate.whole⟩
  | change _ _ hrefreshed => exact (hrefreshed.atRest hcan).2

theorem refreshed_of_execute {numbers : List Nat} {paths : List String} (hnodup : numbers.Nodup)
    (hlisted : Listed numbers paths s)
    (hreturned : ((refreshEntries sources preferredKernel maxSnapshots).execute
      (respond system numbers paths) s).2.1 = .returned ())
    (hbuilds : ((refreshEntries sources preferredKernel maxSnapshots).execute
      (respond system numbers paths) s).1.all fun x => x.1.build?.isNone || x.2.success) :
    Refreshed system sources preferredKernel maxSnapshots s
      ((refreshEntries sources preferredKernel maxSnapshots).execute
        (respond system numbers paths) s).2.2 := by
  refine ⟨_, hreturned ▸ runs_execute, (replays_execute (I := Listed numbers paths)
    (fun _ command hs => world_respond hnodup hs command) hlisted).1, ?_, ?_⟩
  · intro path reply hrm
    obtain ⟨here, hreply⟩ := mem_execute hrm
    exact (congrArg Reply.success hreply).trans success_status
  · intro x hx hbuild
    have hsuccess := (List.all_eq_true.mp hbuilds) x hx
    simpa [hbuild] using hsuccess

def awayWithoutSnapshots : State where
  reachable := false
  marker := false
  snapshots := ∅
  infos _ := none
  ukis _ := none

/-- Two snapshots are made, and their refresh finds the drive away. -/
def afterMissedRefresh : State :=
  ((refreshEntries quietCmdline "" 1).execute
    (respond standardSystem [1, 2] [snapshotUki 2 "linux"])
    { awayWithoutSnapshots with snapshots := {2, 1} }).2.2

end ArchInstaller.SnapshotEntries.Refresh
