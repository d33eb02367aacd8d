import ArchInstaller.Verify.OverlappingRefreshes

/-! # `refresh-settled`

It refreshes until the snapshots are the same before and after: then the UKIs are theirs, if no
snapshot came and went meanwhile, which two fingerprints do not show. -/

namespace ArchInstaller.SnapshotEntries.Refresh

open Interaction PyText

variable {system : System} {sources : CmdlineSources} {preferredKernel path : String}
  {maxSnapshots : Nat} {s s' : State} {exchanges : List (Command × Reply)} {α β : Type}

/-! ## Rounds -/

/-- A round: the snapshots settle, and a refresh is done between two fingerprints. -/
def Round (sources : CmdlineSources) (preferredKernel : String) (maxSnapshots : Nat)
    (exchanges : List (Command × Reply)) (before after : Fingerprint) : Prop :=
  ∃ wait refresh infos numbers infos' numbers',
    exchanges = wait ++ (.statInfos, infos) :: (.statSnapshots, numbers) ::
      (refresh ++ [(.statInfos, infos'), (.statSnapshots, numbers')]) ∧
    before = ⟨infos.times, numbers.numbers⟩ ∧ after = ⟨infos'.times, numbers'.numbers⟩ ∧
    Runs waitForSnapshotsToSettle wait (.returned ()) ∧
    Runs (refreshEntries sources preferredKernel maxSnapshots) refresh (.returned ())

theorem runs_snapshotsFingerprint {fingerprint : Fingerprint}
    (hrun : Runs snapshotsFingerprint exchanges (.returned fingerprint)) : ∃ infos numbers,
      exchanges = [(.statInfos, infos), (.statSnapshots, numbers)] ∧
        fingerprint = ⟨infos.times, numbers.numbers⟩ := by
  obtain ⟨first, infos, rest, rfl, hfirst, hrest⟩ := runs_bind_returned_iff.mp hrun
  obtain ⟨second, numbers, last, rfl, hsecond, hlast⟩ := runs_bind_returned_iff.mp hrest
  obtain rfl := runs_ask_returned_iff.mp hfirst
  obtain rfl := runs_ask_returned_iff.mp hsecond
  obtain ⟨rfl, hvalue⟩ := runs_pure_iff.mp hlast
  exact ⟨infos, numbers, rfl, by simpa using hvalue⟩

/-- The loop goes on where the fingerprints around a refresh differ. -/
theorem runs_refreshRounds_succ {rounds : Nat} {settled : Bool}
    (hrun : Runs (refreshRounds sources preferredKernel maxSnapshots (rounds + 1)) exchanges
      (.returned settled)) : ∃ first second before after, exchanges = first ++ second ∧
        Round sources preferredKernel maxSnapshots first before after ∧
        if after = before then settled = true ∧ second = []
        else Runs (refreshRounds sources preferredKernel maxSnapshots rounds) second
          (.returned settled) := by
  rw [refreshRounds] at hrun
  obtain ⟨wait, _, rest, rfl, hwait, hrest⟩ := runs_bind_returned_iff.mp hrun
  obtain ⟨_, before, rest, rfl, hbefore, hrest⟩ := runs_bind_returned_iff.mp hrest
  obtain ⟨refresh, _, rest, rfl, hrefresh, hrest⟩ := runs_bind_returned_iff.mp hrest
  obtain ⟨_, after, second, rfl, hafter, hsecond⟩ := runs_bind_returned_iff.mp hrest
  obtain ⟨infos, numbers, rfl, hvalue⟩ := runs_snapshotsFingerprint hbefore
  obtain ⟨infos', numbers', rfl, hvalue'⟩ := runs_snapshotsFingerprint hafter
  refine ⟨wait ++ (.statInfos, infos) :: (.statSnapshots, numbers) ::
    (refresh ++ [(.statInfos, infos'), (.statSnapshots, numbers')]), second, before, after,
    by simp, ⟨wait, refresh, infos, numbers, infos', numbers', rfl, hvalue, hvalue', hwait,
      hrefresh⟩, ?_⟩
  split at hsecond
  · next heq =>
    obtain ⟨rfl, hvalue⟩ := runs_pure_iff.mp hsecond
    rw [if_pos heq]
    exact ⟨by simpa using hvalue, rfl⟩
  · next hne =>
    rw [if_neg hne]
    exact runs_log_iff.mp hsecond

/-- All rounds but a last one saw the snapshots change; settled, that one did not, and else there is
none. -/
theorem exists_rounds {rounds : Nat} {settled : Bool}
    (hrun : Runs (refreshRounds sources preferredKernel maxSnapshots rounds) exchanges
      (.returned settled)) : ∃ (changing : List (List (Command × Reply))) (last : _),
        exchanges = changing.flatten ++ last ∧
        (∀ part ∈ changing, ∃ before after, after ≠ before ∧
          Round sources preferredKernel maxSnapshots part before after) ∧
        if settled then changing.length < rounds ∧ ∃ fingerprint,
          Round sources preferredKernel maxSnapshots last fingerprint fingerprint
        else changing.length = rounds ∧ last = [] := by
  induction rounds generalizing exchanges with
  | zero =>
    obtain ⟨_, _, _, rfl, hecho, hend⟩ := runs_bind_returned_iff.mp hrun
    obtain ⟨rfl, -⟩ := runs_ret_iff.mp (runs_log_iff.mp hecho)
    obtain ⟨rfl, hvalue⟩ := runs_pure_iff.mp hend
    obtain rfl : settled = false := by simpa using hvalue
    exact ⟨[], [], rfl, by simp, rfl, rfl⟩
  | succ rounds ih =>
    obtain ⟨first, second, before, after, rfl, hround, hrest⟩ := runs_refreshRounds_succ hrun
    split at hrest
    · next heq =>
      obtain ⟨rfl, rfl⟩ := hrest
      subst heq
      exact ⟨[], first, by simp, by simp, Nat.succ_pos rounds, after, hround⟩
    · next hne =>
      obtain ⟨changing, last, rfl, hchanging, hlast⟩ := ih hrest
      refine ⟨first :: changing, last, by simp, ?_, ?_⟩
      · rw [List.forall_mem_cons]
        exact ⟨⟨before, after, hne, hround⟩, hchanging⟩
      · cases settled with
        | true => exact ⟨Nat.succ_lt_succ hlast.1, hlast.2⟩
        | false => exact ⟨congrArg Nat.succ hlast.1, hlast.2⟩

/-! ## Snapshots that come and go -/

variable {τ : Type} {history : Interleaving τ Command Reply Event} {number : Nat}

theorem Event.Step.mem_snapshots {event : Event} (h : event.Step s s') :
    (event ≠ .delete number → number ∈ s.snapshots → number ∈ s'.snapshots) ∧
      (event ≠ .create number → number ∉ s.snapshots → number ∉ s'.snapshots) := by
  cases event with
  | plug | pull =>
    obtain rfl := h
    exact ⟨fun _ => id, fun _ => id⟩
  | describe =>
    obtain ⟨-, rfl⟩ := h
    exact ⟨fun _ => id, fun _ => id⟩
  | create number' =>
    obtain ⟨-, rfl⟩ := h
    refine ⟨fun _ hmem => Finset.mem_insert_of_mem hmem, fun hne hmem => ?_⟩
    simp only [Finset.mem_insert, not_or]
    exact ⟨fun heq => hne (by rw [heq]), hmem⟩
  | delete number' =>
    obtain ⟨-, rfl⟩ := h
    refine ⟨fun hne hmem => Finset.mem_erase.mpr ⟨fun heq => hne (by rw [heq]), hmem⟩, ?_⟩
    exact fun _ hmem hmem' => hmem (Finset.mem_of_mem_erase hmem')

/-- A snapshot that is not deleted stays. -/
theorem mem_snapshots_of_proceeds (h : Proceeds (world system) Event.Step s history s')
    (hnot : .happened (.delete number) ∉ history) (hmem : number ∈ s.snapshots) :
    number ∈ s'.snapshots := by
  refine h.preserves (P := fun s => number ∈ s.snapshots) (fun o ho mid mid' hmid hstep => ?_) hmem
  cases o with
  | did who command reply => rwa [(world_frame hstep).2]
  | happened event => exact hstep.mem_snapshots.1 (fun heq => hnot (heq ▸ ho)) hmid

/-- There is no snapshot that is not made. -/
theorem not_mem_snapshots_of_proceeds (h : Proceeds (world system) Event.Step s history s')
    (hnot : .happened (.create number) ∉ history) (hmem : number ∉ s.snapshots) :
    number ∉ s'.snapshots := by
  refine h.preserves (P := fun s => number ∉ s.snapshots) (fun o ho mid mid' hmid hstep => ?_) hmem
  cases o with
  | did who command reply => rwa [(world_frame hstep).2]
  | happened event => exact hstep.mem_snapshots.2 (fun heq => hnot (heq ▸ ho)) hmid

/-- Nothing came and went. -/
def Lasting (history : Interleaving τ Command Reply Event) : Prop :=
  ∀ number, .happened (.create number) ∈ history → .happened (.delete number) ∉ history

/-- Where the snapshots are the same in the end and none came and went, none came or went. -/
theorem unchanged_of_proceeds (h : Proceeds (world system) Event.Step s history s')
    (hlasting : Lasting history) (hsame : s'.snapshots = s.snapshots) :
    .happened (.create number) ∉ history ∧ .happened (.delete number) ∉ history := by
  have hcreate : .happened (.create number) ∉ history := by
    intro hmem
    have hdelete := hlasting number hmem
    obtain ⟨before, after, rfl⟩ := List.append_of_mem hmem
    obtain ⟨here, next, hbefore, ⟨hnew, rfl⟩, hafter⟩ := h.split
    have hend := mem_snapshots_of_proceeds hafter (fun hdelete' => hdelete (by simp [hdelete']))
      (Finset.mem_insert_self number here.snapshots)
    rw [hsame] at hend
    exact hnew (mem_snapshots_of_proceeds hbefore (fun hdelete' => hdelete (by simp [hdelete']))
      hend)
  refine ⟨hcreate, fun hmem => ?_⟩
  obtain ⟨before, after, rfl⟩ := List.append_of_mem hmem
  obtain ⟨here, next, hbefore, ⟨hold, rfl⟩, hafter⟩ := h.split
  have hend := not_mem_snapshots_of_proceeds hafter (fun hcreate' => hcreate (by simp [hcreate']))
    (Finset.notMem_erase number here.snapshots)
  rw [hsame] at hend
  exact not_mem_snapshots_of_proceeds hbefore (fun hcreate' => hcreate (by simp [hcreate'])) hend
    hold

/-! ## The UKIs in the end -/

/-- `refresh-settled` that ends without its warning, with the drive plugged in all the time; every
`rm` and every build does its work. -/
structure SettledRun (system : System) (sources : CmdlineSources) (preferredKernel : String)
    (maxSnapshots : Nat) (s : State) (history : Interleaving Unit Command Reply Event)
    (s' : State) : Prop where
  proceeds : Proceeds (world system) Event.Step s history s'
  returned : Runs (refreshEntriesUntilSettled sources preferredKernel maxSnapshots)
    (exchangesOf () history) (.returned true)
  reachable : s.reachable
  pluggedIn : .happened .plug ∉ history ∧ .happened .pull ∉ history
  removes : ∀ path reply, .did () (.rm path) reply ∈ history → reply.success
  builds : ∀ command reply, .did () command reply ∈ history → command.build? ≠ none →
    reply.success

/-- The parts of a history around a refresh and the fingerprints of the snapshots before and after
it. -/
theorem Round.exists_parts {history : Interleaving Unit Command Reply Event}
    {fingerprint : Fingerprint} {earlier last : List (Command × Reply)}
    (h : Round sources preferredKernel maxSnapshots last fingerprint fingerprint)
    (hhistory : exchangesOf () history = earlier ++ last) :
    ∃ before numbers refresh infos numbers' after,
      history = before ++ .did () .statSnapshots numbers ::
        (refresh ++ (infos ++ .did () .statSnapshots numbers' :: after)) ∧
      numbers'.numbers = numbers.numbers ∧
      Runs (refreshEntries sources preferredKernel maxSnapshots) (exchangesOf () refresh)
        (.returned ()) ∧
      (∃ reply, exchangesOf () infos = [(.statInfos, reply)]) ∧ exchangesOf () after = [] := by
  obtain ⟨wait, refresh, infos, numbers, infos', numbers', rfl, hbefore, hafter, -, hrefresh⟩ := h
  have hparts : exchangesOf () history = (earlier ++ wait ++ [(.statInfos, infos)]) ++
      (.statSnapshots, numbers) ::
        (refresh ++ [(.statInfos, infos'), (.statSnapshots, numbers')]) := by
    rw [hhistory]
    simp
  obtain ⟨before, rest, rfl, -, hrest⟩ := exists_did_of_exchangesOf hparts
  obtain ⟨middle, rest, rfl, hmiddle, hrest⟩ := exists_append_of_exchangesOf hrest
  obtain ⟨last, after, rfl, hlast, hend⟩ :=
    exists_did_of_exchangesOf (show _ = [(Command.statInfos, infos')] ++ _ from hrest)
  rw [hbefore, Fingerprint.mk.injEq] at hafter
  exact ⟨before, numbers, middle, last, numbers', after, rfl, hafter.2.symm, hmiddle ▸ hrefresh,
    ⟨infos', hlast⟩, hend⟩

/-- The UKIs stay the same where nothing is removed and nothing is built. -/
theorem ukis_eq_of_proceeds (h : Proceeds (world system) Event.Step s history s')
    (hlooks : ∀ who command reply, .did who command reply ∈ history → Looks command) :
    s'.ukis = s.ukis := by
  refine h.preserves (P := fun state => state.ukis = s.ukis)
    (fun o ho mid mid' hmid hstep => ?_) rfl
  cases o with
  | happened event => rw [hstep.ukis_eq, hmid]
  | did who command reply =>
    obtain ⟨hbuild, hrm, -⟩ := hlooks who command reply ho
    rw [← hmid]
    funext path
    rcases world_ukis hstep path with heq | ⟨hpath, -⟩ | ⟨build, hcommand, -⟩
    · exact heq
    · exact absurd hpath (hrm path)
    · rw [show command.build? = none from hbuild] at hcommand
      cases hcommand

/-- The drive stays plugged in. -/
theorem reachable_of_proceeds (h : Proceeds (world system) Event.Step s history s')
    (hpull : .happened .pull ∉ history) (hreach : s.reachable) : s'.reachable := by
  refine h.preserves (P := fun s => s.reachable) (fun o ho mid mid' hmid hstep => ?_) hreach
  cases o with
  | did who command reply => rwa [(world_frame hstep).1]
  | happened event =>
    cases event with
    | plug =>
      obtain rfl := hstep
      rfl
    | pull => exact absurd ho hpull
    | create | describe | delete =>
      obtain ⟨-, rfl⟩ := hstep
      exact hmid

/-- The fingerprint after a refresh leaves the UKIs as they are. -/
theorem ukis_eq_of_fingerprint {infos after : Interleaving Unit Command Reply Event}
    {numbers : Reply}
    (h : Proceeds (world system) Event.Step s
      (infos ++ .did () .statSnapshots numbers :: after) s')
    (hinfos : ∃ reply, exchangesOf () infos = [(.statInfos, reply)])
    (hafter : exchangesOf () after = []) : s'.ukis = s.ukis := by
  refine ukis_eq_of_proceeds h fun _ command reply hdid => ?_
  obtain ⟨reply', hinfos⟩ := hinfos
  have hexchange : (command, reply) ∈ exchangesOf () _ := mem_exchangesOf.mpr hdid
  rw [exchangesOf_append, hinfos, exchangesOf_cons, hafter] at hexchange
  simp only [Occurrence.exchange?, if_true, Option.toList_some, List.append_nil,
    List.singleton_append, List.mem_cons, Prod.mk.injEq, List.not_mem_nil, or_false] at hexchange
  rcases hexchange with ⟨rfl, -⟩ | ⟨rfl, -⟩ <;> simp [Looks, IsQuiet, Command.build?]

/-- Between two fingerprints that are the same, a refresh runs undisturbed. -/
theorem SettledRun.overlap {history refresh infos : Interleaving Unit Command Reply Event}
    {here mid there : State}
    (h : SettledRun system sources preferredKernel maxSnapshots s history s')
    (hlasting : Lasting history) (hmem : refresh ++ infos ⊆ history) (hreachable : here.reachable)
    (hrefresh : Runs (refreshEntries sources preferredKernel maxSnapshots)
      (exchangesOf () refresh) (.returned ()))
    (hmid : Proceeds (world system) Event.Step here refresh mid)
    (hthere : Proceeds (world system) Event.Step mid infos there)
    (hsame : there.snapshots = here.snapshots) :
    Overlap system sources preferredKernel maxSnapshots here refresh mid := by
  refine ⟨⟨hmid, hreachable, fun event hevent => ?_, fun _ path reply hrm => ?_⟩, fun _ => hrefresh⟩
  · have hnot : ∀ number, .happened (.create number) ∉ refresh ++ infos ∧
        .happened (.delete number) ∉ refresh ++ infos := fun number =>
      unchanged_of_proceeds (proceeds_append_iff.mpr ⟨mid, hmid, hthere⟩)
        (fun number hcreate hdelete => hlasting number (hmem hcreate) (hmem hdelete)) hsame
    have hpart : .happened event ∈ refresh ++ infos := List.mem_append_left _ hevent
    cases event with
    | plug => exact absurd (hmem hpart) h.pluggedIn.1
    | pull => exact absurd (hmem hpart) h.pluggedIn.2
    | create number => exact absurd hpart (hnot number).1
    | delete number => exact absurd hpart (hnot number).2
    | describe => rfl
  · exact h.removes path reply (hmem (List.mem_append_left _ hrm))

/-- Settled, the UKIs are those of the newest of the snapshots that the last fingerprint shows, if
none came and went during the run. -/
theorem SettledRun.exact {history : Interleaving Unit Command Reply Event}
    (h : SettledRun system sources preferredKernel maxSnapshots s history s')
    (hlasting : Lasting history)
    (hcan : system.canBuild (system.kernel preferredKernel)) :
    ∃ before fingerprint after here,
      history = before ++ .did () .statSnapshots fingerprint :: after ∧
      exchangesOf () after = [] ∧ Proceeds (world system) Event.Step s before here ∧
      (∀ path, isSnapshotUki path → s'.ukis path ≠ none →
        ∃ number ∈ newest maxSnapshots here.snapshots,
          path = snapshotUki number (system.kernel preferredKernel)) ∧
      ∀ number ∈ newest maxSnapshots here.snapshots, ∃ build,
        s'.ukis (snapshotUki number (system.kernel preferredKernel)) = some (.whole build) ∧
          build.number = number ∧ build.kernel = system.kernel preferredKernel ∧
            build.cmdline = buildSnapshotCmdline sources (snapshotSubvolume number) "rw" := by
  obtain ⟨changing, last, hhistory, -, hlast⟩ := exists_rounds h.returned
  obtain ⟨-, fingerprint, hround⟩ := hlast
  obtain ⟨before, numbers, refresh, infos, numbers', after, rfl, hnumbers, hrefresh, hinfos,
    hafter⟩ :=
    hround.exists_parts hhistory
  have hmem : refresh ++ infos ⊆ before ++ .did () .statSnapshots numbers ::
      (refresh ++ (infos ++ .did () .statSnapshots numbers' :: after)) := by
    intro o ho
    rcases List.mem_append.mp ho with ho | ho <;> simp [ho]
  obtain ⟨here, next, hbefore, ⟨hnext, hseen⟩, hrest⟩ := h.proceeds.split
  rw [hnext] at hrest
  obtain ⟨mid, hmid, hrest⟩ := proceeds_append_iff.mp hrest
  obtain ⟨there, next', hthere, hstep, hend⟩ := hrest.split
  obtain ⟨-, hseen'⟩ := hstep
  have hsame : there.snapshots = here.snapshots := by
    ext number
    rw [← hseen number, ← hseen' number, hnumbers]
  have hreachable := reachable_of_proceeds hbefore
    (fun hpull => h.pluggedIn.2 (List.mem_append_left _ hpull)) h.reachable
  have hoverlap := h.overlap hlasting hmem hreachable hrefresh hmid hthere hsame
  obtain ⟨honly, hwhole⟩ := overlap_exact hoverlap hcan
  have hukis : s'.ukis = mid.ukis := ukis_eq_of_fingerprint hrest hinfos hafter
  refine ⟨before ++ .did () .statSnapshots numbers :: (refresh ++ infos), numbers', after, there,
    by simp, hafter, ?_, ?_, ?_⟩
  · exact proceeds_append_iff.mpr ⟨here, hbefore, .did ⟨rfl, hseen⟩
      (proceeds_append_iff.mpr ⟨mid, hmid, hthere⟩)⟩
  · rw [hukis, hsame]
    exact honly
  · rw [hukis, hsame]
    refine fun number hnumber => hwhole number hnumber
      fun _ command reply build hbuild hcommand _ => ?_
    exact h.builds command reply (hmem (List.mem_append_left _ hbuild)) (by simp [hcommand])

/-- Where nothing happens meanwhile and every command does its work. -/
theorem settledRun_of_execute {numbers : List Nat} {paths : List String} (hnodup : numbers.Nodup)
    (hlisted : Listed numbers paths s) (hreachable : s.reachable)
    (hreturned : ((refreshEntriesUntilSettled sources preferredKernel maxSnapshots).execute
      (respond system numbers paths) s).2.1 = .returned true)
    (hsuccess : ((refreshEntriesUntilSettled sources preferredKernel maxSnapshots).execute
      (respond system numbers paths) s).1.all fun x => x.2.success) :
    SettledRun system sources preferredKernel maxSnapshots s
      (((refreshEntriesUntilSettled sources preferredKernel maxSnapshots).execute
        (respond system numbers paths) s).1.map fun x => .did () x.1 x.2)
      ((refreshEntriesUntilSettled sources preferredKernel maxSnapshots).execute
        (respond system numbers paths) s).2.2 := by
  rw [List.all_eq_true] at hsuccess
  have hdid : ∀ command reply, .did () command reply ∈
      (((refreshEntriesUntilSettled sources preferredKernel maxSnapshots).execute
        (respond system numbers paths) s).1.map fun x => .did () x.1 x.2 :
        Interleaving Unit Command Reply Event) → reply.success := by
    intro command reply hmem
    obtain ⟨x, hx, heq⟩ := List.mem_map.mp hmem
    obtain ⟨-, -, rfl⟩ := Occurrence.did.injEq .. ▸ heq
    exact hsuccess x hx
  refine ⟨(replays_execute (I := Listed numbers paths)
    (fun _ command hs => world_respond hnodup hs command) hlisted).1.proceeds, ?_, hreachable,
    by simp, fun path reply hrm => hdid _ reply hrm, fun command reply hmem _ => hdid _ reply hmem⟩
  rw [exchangesOf_alone]
  exact hreturned ▸ runs_execute

/-- Of two snapshots, the newest has the one UKI that there is. -/
theorem settled_newest : ∃ s' : State,
    (∀ path, isSnapshotUki path → s'.ukis path ≠ none → path = snapshotUki 2 "linux") ∧
      ∃ build, s'.ukis (snapshotUki 2 "linux") = some (.whole build) := by
  have hrun : SettledRun standardSystem quietCmdline "" 1 twoSnapshots _ _ :=
    settledRun_of_execute (by decide) (@listed_twoSnapshots [snapshotUki 2 "linux"]) rfl
      rfl (by decide)
  obtain ⟨before, fingerprint, after, here, hsplit, -, hbefore, honly, hwhole⟩ :=
    hrun.exact (fun number hmem => by simp at hmem) (by decide)
  have hnever : ∀ event, .happened event ∉ before := fun event hmem => by
    have hmem' : .happened event ∈ before ++ .did () .statSnapshots fingerprint :: after := by
      simp [hmem]
    rw [← hsplit] at hmem'
    simp at hmem'
  have hsnapshots : here.snapshots = twoSnapshots.snapshots := by
    ext number
    by_cases hmem : number ∈ twoSnapshots.snapshots
    · exact iff_of_true (mem_snapshots_of_proceeds hbefore (hnever _) hmem) hmem
    · exact iff_of_false (not_mem_snapshots_of_proceeds hbefore (hnever _) hmem) hmem
  have hnewest : newest 1 here.snapshots = {2} := by
    rw [hsnapshots]
    decide
  rw [hnewest] at honly hwhole
  obtain ⟨build, hbuild, -⟩ := hwhole 2 (Finset.mem_singleton_self 2)
  refine ⟨_, fun path hpath huki => ?_, build, hbuild⟩
  obtain ⟨number, hnumber, rfl⟩ := honly path hpath huki
  obtain rfl := Finset.mem_singleton.mp hnumber
  rfl

end ArchInstaller.SnapshotEntries.Refresh
