import ArchInstaller.Config.Sample
import ArchInstaller.World.Signing

/-! # The one-time signing key

The key of a run of the recovery step is only ever at one path, in the signing directory, and is
gone when the step ends; the certificate that the UKI brings is that of the key that signed the root
image. What an earlier run left in the signing directory is removed only once the recovery partition
is mounted and read: a step that fails before leaves the old key where it is. -/

namespace ArchInstaller

open Interaction PyText Script

theorem prefix_of_atOrBelow {directory path : String} (h : atOrBelow directory path) :
    directory.toList <+: path.toList := by
  simp only [atOrBelow, startsWith, Bool.or_eq_true, beq_iff_eq, List.isPrefixOf_iff_prefix] at h
  rcases h with rfl | h
  · exact List.prefix_rfl
  · refine List.IsPrefix.trans ?_ h
    rw [String.toList_append]
    exact List.prefix_append ..

/-- Two directories neither of which is in the other have no path in common. -/
theorem atOrBelow_apart {directory directory' path : String}
    (h : ¬ directory.toList <+: directory'.toList) (h' : ¬ directory'.toList <+: directory.toList)
    (hpath : atOrBelow directory path) : atOrBelow directory' path = false := by
  by_contra hpath'
  rcases List.prefix_or_prefix_of_prefix (prefix_of_atOrBelow hpath)
    (prefix_of_atOrBelow (by simpa using hpath')) with hpre | hpre
  · exact h hpre
  · exact h' hpre

namespace RecoverySystemStepExecutor

variable {config : InstallerConfig} {s s' : SigningState} {made : Nat}

def keyPath : String := s!"{recoverySigningDirectory}/key.pem"

def certificatePath : String := s!"{recoverySigningDirectory}/{archisoCertificateFiles.1}"

def rootImagePath : String := s!"{recoveryMount}/{archisoRootImage}"

/-- No private key file is in the signing directory. -/
def NoKeyLeft (s : SigningState) : Prop :=
  ∀ path id, atOrBelow recoverySigningDirectory path → s.file path ≠ some (.key id)

/-- Of the keys from a number on, nothing is outside the signing directory. -/
def KeysStay (made : Nat) (s : SigningState) : Prop :=
  ∀ path content id, made ≤ id → content.Holds id → s.covered path ≠ some content ∧
    (s.file path = some content → atOrBelow recoverySigningDirectory path)

/-- The files that a command is handed as private keys. -/
def keyFiles : Command → List String
  | .opensslRequest key _ _ | .opensslSign _ _ key => [key]
  | _ => []

/-- The last initramfs of the UKI brings the certificate, under both of its names, of a key made
since, and that key signed the root image. -/
def UkiFits (made : Nat) (s : SigningState) : Prop :=
  ∃ id initrds, made ≤ id ∧ s.Signed rootImagePath id ∧
    s.file s!"{targetRoot}{recoveryUki}" = some (.uki initrds) ∧
    initrds.getLast? = some (.archive [(archisoCertificateFiles.1, .certificate id),
      (archisoCertificateFiles.2, .certificate id)])

/-- The key outlives no run of the step that starts in the state, however its commands end. -/
def KeyNeverOutlives (config : InstallerConfig) (s : SigningState) : Prop :=
  ∀ exchanges outcome s', Runs (execute config) exchanges outcome →
    Replays signingWorld s exchanges s' →
      KeysStay s.made s' ∧
      (∀ x ∈ exchanges, ∀ path ∈ keyFiles x.1.command, atOrBelow recoverySigningDirectory path) ∧
      (outcome ≠ .stopped → NoKeyLeft s') ∧
      (outcome = .returned () → UkiFits s.made s')

/-! ## Where the key is -/

/-- The keys from a number on are at the one path that is made for them. -/
structure OnlyAtKeyPath (made : Nat) (s : SigningState) : Prop where
  le : made ≤ s.made
  shown : ∀ path content id, made ≤ id → content.Holds id → s.file path = some content →
    path = keyPath
  hidden : ∀ path content id, made ≤ id → content.Holds id → s.covered path ≠ some content

theorem OnlyAtKeyPath.start : OnlyAtKeyPath s.made s where
  le := Nat.le_refl _
  shown path content id hid hholds hfile :=
    absurd (s.known path content id (.inl hfile) hholds) (by omega)
  hidden path content id hid hholds hcovered :=
    absurd (s.known path content id (.inr hcovered) hholds) (by omega)

theorem OnlyAtKeyPath.keysStay (h : OnlyAtKeyPath made s) : KeysStay made s := by
  intro path content id hid hholds
  refine ⟨h.hidden path content id hid hholds, fun hfile => ?_⟩
  rw [h.shown path content id hid hholds hfile]
  decide

/-- A command that makes a file that holds no such key. -/
theorem OnlyAtKeyPath.makes {ok : Bool} {path : String} {Done : Content → Prop}
    (h : OnlyAtKeyPath made s) (hmakes : Makes s ok s' path Done)
    (hdone : ∀ content id, made ≤ id → content.Holds id → ¬ Done content) :
    OnlyAtKeyPath made s' where
  le := hmakes.made ▸ h.le
  hidden := hmakes.covered ▸ h.hidden
  shown path' content id hid hholds hfile := by
    by_cases hpath : path' = path
    · subst hpath
      have hleaves := hmakes.file
      rw [hfile] at hleaves
      cases ok with
      | true =>
        obtain ⟨_, heq, hcontent⟩ := hleaves
        cases heq
        exact absurd hcontent (hdone content id hid hholds)
      | false =>
        rcases hleaves with hbefore | hnone | hother | ⟨_, heq, hcontent⟩
        · exact h.shown path' content id hid hholds hbefore.symm
        · cases hnone
        · cases hother
          exact absurd hholds Content.not_holds_other
        · cases heq
          exact absurd hcontent (hdone content id hid hholds)
    · exact h.shown path' content id hid hholds (by rw [← hmakes.others path' hpath, hfile])

/-- A command that puts no key anywhere but at its path. -/
def PutsNoKey : Command → Prop
  | .blkidUuid _ | .cat _ | .test .. | .mkdir _ | .mkdirPrivate _ | .rmForce _ | .rmRecursive _
  | .writeFile _ | .chroot (.sbctlSign _) => True
  | .mountExt4 _ directory | .umount directory => atOrBelow directory keyPath = false
  | .cp source _ => source ≠ keyPath
  | .bsdtarNewc _ directory members => ∀ name ∈ split " " members, s!"{directory}/{name}" ≠ keyPath
  | .opensslRequest key certificate _ => key = keyPath ∧ certificate ≠ keyPath
  | .opensslSign _ _ key => key = keyPath
  | .chroot (.ukify _ initrds _ _) => ∀ initrd ∈ initrds, s!"{targetRoot}{initrd}" ≠ keyPath
  | _ => False

theorem OnlyAtKeyPath.swap {directory : String} (h : OnlyAtKeyPath made s)
    (hdirectory : atOrBelow directory keyPath = false) :
    OnlyAtKeyPath made (s.swap directory) where
  le := h.le
  shown path content id hid hholds hfile := by
    simp only [SigningState.swap] at hfile
    split at hfile
    · exact absurd hfile (h.hidden path content id hid hholds)
    · exact h.shown path content id hid hholds hfile
  hidden path content id hid hholds hcovered := by
    simp only [SigningState.swap] at hcovered
    split at hcovered
    next hpath =>
      rw [h.shown path content id hid hholds hcovered, hdirectory] at hpath
      cases hpath
    · exact h.hidden path content id hid hholds hcovered

theorem OnlyAtKeyPath.remove {gone : String → Bool} (h : OnlyAtKeyPath made s) :
    OnlyAtKeyPath made (s.remove gone) where
  le := h.le
  shown path content id hid hholds hfile := by
    simp only [SigningState.remove] at hfile
    split at hfile
    · cases hfile
    · exact h.shown path content id hid hholds hfile
  hidden := h.hidden

theorem OnlyAtKeyPath.newKey {ok : Bool} {certificate : String} (h : OnlyAtKeyPath made s)
    (hnew : NewKey s ok s' keyPath certificate) : OnlyAtKeyPath made s' where
  le := h.le.trans hnew.made
  hidden := hnew.covered ▸ h.hidden
  shown path content id hid hholds hfile := by
    by_contra hpath
    by_cases hcertificate : path = certificate
    · subst hcertificate
      have hleaves := hnew.certificateFile
      simp only [hfile, Leaves] at hleaves
      split at hleaves
      · obtain ⟨_, heq, rfl⟩ := hleaves
        cases heq
        exact absurd hholds Content.not_holds_certificate
      · rcases hleaves with hbefore | hnone | hother | ⟨_, heq, rfl⟩
        · exact hpath (h.shown path content id hid hholds hbefore.symm)
        · cases hnone
        · cases hother
          exact absurd hholds Content.not_holds_other
        · cases heq
          exact absurd hholds Content.not_holds_certificate
    · refine hpath (h.shown path content id hid hholds ?_)
      rw [← hnew.others path hpath hcertificate, hfile]

theorem OnlyAtKeyPath.step {ok : Bool} {command : Command} (hs : OnlyAtKeyPath made s)
    (h : PutsNoKey command) (hstep : SigningEffect s ok s' command) : OnlyAtKeyPath made s' := by
  cases command with
  | blkidUuid | cat | test | mkdir | mkdirPrivate => exact (show s' = s from hstep) ▸ hs
  | mountExt4 _ directory | umount directory =>
    rw [show s' = if ok then s.swap directory else s from hstep]
    cases ok with
    | true => exact hs.swap h
    | false => exact hs
  | rmForce | rmRecursive => exact hstep.2 ▸ hs.remove
  | writeFile =>
    refine hs.makes hstep fun content id _ hholds hdone => ?_
    subst hdone
    exact Content.not_holds_other hholds
  | cp source =>
    exact hs.makes hstep fun content id hid hholds hdone => h (hs.shown _ _ id hid hholds hdone)
  | bsdtarNewc archive directory members =>
    refine hs.makes hstep fun content id hid hholds hdone => ?_
    obtain ⟨packed, rfl, hpacked, -, hnames⟩ := hdone
    cases hholds with
    | archive hmem hholds =>
      exact h _ (hnames _ hmem) (hs.shown _ _ id hid hholds (hpacked _ hmem))
  | opensslRequest key certificate =>
    obtain ⟨rfl, -⟩ : key = keyPath ∧ certificate ≠ keyPath := h
    exact hs.newKey hstep
  | opensslSign =>
    refine hs.makes hstep fun content id _ hholds hdone => ?_
    obtain ⟨_, rfl, -⟩ := hdone
    exact Content.not_holds_signature hholds
  | chroot command =>
    cases command with
    | ukify _ initrds =>
      refine hs.makes hstep fun content id hid hholds hdone => ?_
      obtain ⟨images, rfl, hread⟩ := hdone
      cases hholds with
      | uki hmem hholds =>
        have hread' := List.mem_map_of_mem (f := some) hmem
        rw [← hread, List.mem_map] at hread'
        obtain ⟨initrd, hinitrd, hfile⟩ := hread'
        exact h initrd hinitrd (hs.shown _ _ id hid hholds hfile)
    | sbctlSign =>
      cases ok with
      | true => exact (show s' = s from hstep) ▸ hs
      | false =>
        refine hs.makes hstep fun content id _ hholds hdone => ?_
        subst hdone
        exact Content.not_holds_other hholds
    | _ => exact h.elim
  | _ => exact h.elim

def MindsKey (invocation : Invocation) : Prop := PutsNoKey invocation.command

theorem issues_mindsKey : Issues MindsKey (execute config) := by
  have hkey : s!"{recoverySigningDirectory}/key.pem" = keyPath := rfl
  have hmount : atOrBelow recoveryMount keyPath = false := by decide
  have hcertificate : s!"{recoverySigningDirectory}/{archisoCertificateFiles.1}" ≠ keyPath := by
    decide
  have hkernel : s!"{recoveryMount}/{archisoKernel}" ≠ keyPath := by decide
  have hinitramfs : s!"{recoveryMount}/{archisoInitramfs}" ≠ keyPath := by decide
  have hmembers : ∀ name ∈ split " " s!"{archisoCertificateFiles.1} {archisoCertificateFiles.2}",
      s!"{recoverySigningDirectory}/{name}" ≠ keyPath := by decide
  have hinitrds : ∀ initrd ∈ [s!"{recoveryBuildDirectory}/{afterLastSlash archisoInitramfs}",
      s!"{recoveryBuildDirectory}/{certificateInitramfs}"], s!"{targetRoot}{initrd}" ≠ keyPath := by
    decide
  have hsignature : ∀ image, Issues MindsKey (createSignature image) := by
    simp [createSignature, MindsKey, PutsNoKey, hkey, hcertificate]
  have hsign : ∀ directory, Issues MindsKey (signRootImage directory) := by
    intro directory
    simp only [signRootImage, issues_bind, issues_run_unit, issues_tryRun_unit]
    exact ⟨fun _ => trivial, fun _ _ => ⟨fun _ => trivial, fun _ _ =>
      ⟨.tryFinally (hsignature _) (by simp [MindsKey, PutsNoKey]), fun _ _ => ⟨fun _ => hcertificate,
        fun _ _ => ⟨fun _ => hmembers, fun _ _ _ => trivial⟩⟩⟩⟩⟩
  have hbuild : ∀ cmdline, Issues MindsKey (buildUki cmdline) := by
    intro cmdline
    simp only [buildUki, runAsChroot_, issues_bind, issues_run_unit]
    exact ⟨fun _ => trivial, fun _ _ _ => hinitrds⟩
  have hfrom : ∀ directory uuid,
      Issues MindsKey (buildFromPartition directory uuid) := by
    simp [buildFromPartition, hsign, hbuild, MindsKey, PutsNoKey, hkernel, hinitramfs]
  have hclean : ∀ directory, Issues MindsKey (cleanUp directory) := by
    simp [cleanUp, MindsKey, PutsNoKey, hmount]
  simp [execute, hfrom, hclean, signUki, fileExists, runAsChroot_, MindsKey, PutsNoKey, hmount]

theorem MindsKey.keyFiles {i : Invocation} (h : MindsKey i) :
    ∀ path ∈ keyFiles i.command, atOrBelow recoverySigningDirectory path := by
  obtain ⟨command, raises, inputData⟩ := i
  have hkey : atOrBelow recoverySigningDirectory keyPath := by decide
  cases command with
  | opensslRequest => simpa [RecoverySystemStepExecutor.keyFiles, h.1] using hkey
  | opensslSign image certificate key =>
    obtain rfl : key = keyPath := h
    simpa [RecoverySystemStepExecutor.keyFiles] using hkey
  | _ => simp [RecoverySystemStepExecutor.keyFiles]

/-! ## What is left when the step ends -/

/-- A command that changes nothing in the signing directory. -/
def LeavesSigning (invocation : Invocation) : Prop :=
  ∀ path, atOrBelow recoverySigningDirectory path → invocation.command.mayChange path = false

theorem NoKeyLeft.step {i : Invocation} {answer : CommandExecutionResult}
    (hs : NoKeyLeft s) (h : LeavesSigning i) (hstep : signingWorld s i answer s') :
    NoKeyLeft s' := by
  intro path id hpath
  rw [file_eq_of_mayChange hstep (h path hpath)]
  exact hs path id hpath

/-- However a run of the script ends, there is no key file in the signing directory if there was
none before. -/
def LeavesNoKey {α : Type} (p : Script α) : Prop :=
  ∀ s, NoKeyLeft s → Ends signingWorld s p fun _ _ s' => NoKeyLeft s'

section LeavesNoKey

variable {α β : Type} {p : Script α} {f : α → Script β}

theorem LeavesNoKey.of_issues (h : Issues LeavesSigning p) : LeavesNoKey p := by
  intro s hs exchanges outcome s' hrun hreplay _
  exact h.preserves (P := NoKeyLeft) (fun i r mid mid' hgood hmid hstep => hmid.step hgood hstep)
    allAllowed_true hrun hreplay hs

theorem LeavesNoKey.bind (hp : LeavesNoKey p) (hf : ∀ value, LeavesNoKey (f value)) :
    LeavesNoKey (p >>= f) :=
  fun s hs => (hp s hs).bind (fun _ _ _ h => h) fun _ value mid hmid => hf value mid hmid

theorem LeavesNoKey.tryFinally {cleanup : Script Unit} (hp : LeavesNoKey p)
    (hcleanup : LeavesNoKey cleanup) : LeavesNoKey (p.tryFinally cleanup) :=
  fun s hs => (hp s hs).tryFinally fun _ mid hmid => hcleanup mid hmid

theorem LeavesNoKey.call {command : Command} {p : Script Unit}
    (hp : p = run_ command ∨ p = tryRun_ command)
    (h : ∀ s ok s', NoKeyLeft s → SigningEffect s ok s' command → NoKeyLeft s') :
    LeavesNoKey p := by
  intro s hs
  rcases hp with rfl | rfl
  · exact ends_run_unit (fun _ _ hstep _ => h _ _ _ hs hstep) fun _ _ _ hstep _ => h _ _ _ hs hstep
  · exact ends_tryRun_unit fun _ _ hstep => h _ _ _ hs hstep

end LeavesNoKey

theorem noKeyLeft_remove : NoKeyLeft (s.remove (atOrBelow recoverySigningDirectory)) := by
  intro path id hpath
  simp [SigningState.remove, hpath]

/-- The key file is the only one in the signing directory, while it is used. -/
def OnlyKeyFile (s : SigningState) : Prop :=
  ∀ path id, atOrBelow recoverySigningDirectory path → path ≠ keyPath → s.file path ≠ some (.key id)

theorem NoKeyLeft.onlyKeyFile (h : NoKeyLeft s) : OnlyKeyFile s :=
  fun path id hpath _ => h path id hpath

theorem OnlyKeyFile.noKeyLeft (h : OnlyKeyFile s) : NoKeyLeft (s.remove (· == keyPath)) := by
  intro path id hpath
  by_cases hkey : path = keyPath
  · simp [SigningState.remove, hkey]
  · simpa [SigningState.remove, hkey] using h path id hpath hkey

theorem OnlyKeyFile.newKey {ok : Bool} {certificate : String} (h : OnlyKeyFile s)
    (hnew : NewKey s ok s' keyPath certificate) : OnlyKeyFile s' := by
  intro path id hpath hkey hfile
  by_cases hcertificate : path = certificate
  · subst hcertificate
    have hleaves := hnew.certificateFile
    simp only [hfile, Leaves] at hleaves
    split at hleaves
    · obtain ⟨_, heq, rfl⟩ := hleaves
      cases heq
    · rcases hleaves with hbefore | hnone | hother | ⟨_, heq, rfl⟩
      · exact h path id hpath hkey hbefore.symm
      all_goals simp_all
  · exact h path id hpath hkey (by rw [← hnew.others path hkey hcertificate, hfile])

theorem ne_of_atOrBelow {directory file path : String} (h : atOrBelow directory file = false)
    (hpath : atOrBelow directory path) : (path == file) = false := by
  rw [beq_eq_false_iff_ne]
  rintro rfl
  rw [hpath] at h
  cases h

theorem ends_createSignature (hs : OnlyKeyFile s) :
    Ends signingWorld s (createSignature rootImagePath) fun _ _ s' => OnlyKeyFile s' := by
  have hsignature : atOrBelow recoverySigningDirectory s!"{rootImagePath}.cms.sig" = false := by
    decide
  have hsign : ∀ {mid s' answer}, OnlyKeyFile mid →
      signingWorld mid (checked (.opensslSign rootImagePath certificatePath keyPath)) answer s' →
        OnlyKeyFile s' := by
    intro mid s' answer hmid hstep path id hpath hkey
    rw [file_eq_of_mayChange hstep (ne_of_atOrBelow hsignature hpath)]
    exact hmid path id hpath hkey
  have hrequest : Ends signingWorld s
      (run_ (.opensslRequest keyPath certificatePath signingCertificateDays))
      fun _ _ s' => OnlyKeyFile s' :=
    ends_run_unit (fun _ _ hstep _ => hs.newKey hstep) fun _ _ _ hstep _ => hs.newKey hstep
  refine hrequest.bind (fun _ _ _ h => h) fun _ _ mid hmid => ?_
  · exact ends_run_unit (fun _ _ hstep _ => hsign hmid hstep) fun _ _ _ hstep _ => hsign hmid hstep

theorem leavesNoKey_signature :
    LeavesNoKey (Program.tryFinally (createSignature rootImagePath) (tryRun_ (.rmForce keyPath))) := by
  intro s hs
  refine (ends_createSignature hs.onlyKeyFile).tryFinally fun _ mid hmid => ?_
  refine ends_tryRun_unit fun _ _ hstep => ?_
  rw [hstep.2]
  exact hmid.noKeyLeft

/-- What is copied from the signing directory is no key. -/
theorem NoKeyLeft.copy {ok : Bool} {source destination : String} (hs : NoKeyLeft s)
    (hsource : atOrBelow recoverySigningDirectory source)
    (hstep : SigningEffect s ok s' (.cp source destination)) : NoKeyLeft s' := by
  intro path id hpath hfile
  by_cases htarget : path = copiedFile source destination
  · subst htarget
    have hleaves := Makes.file hstep
    simp only [hfile, Leaves] at hleaves
    split at hleaves
    · obtain ⟨_, heq, hcontent⟩ := hleaves
      cases heq
      exact hs source id hsource hcontent
    · rcases hleaves with hbefore | hnone | hother | ⟨_, heq, hcontent⟩
      · exact hs _ id hpath hbefore.symm
      · cases hnone
      · cases hother
      · cases heq
        exact hs source id hsource hcontent
  · exact hs path id hpath (by rw [← Makes.others hstep path htarget, hfile])

/-- The build directory is inside the target. -/
def buildPath : String := s!"{targetRoot}{recoveryBuildDirectory}"

theorem leavesNoKey_signRootImage : LeavesNoKey (signRootImage buildPath) := by
  have hremove : ∀ s ok s', NoKeyLeft s →
      SigningEffect s ok s' (.rmRecursive recoverySigningDirectory) → NoKeyLeft s' := by
    intro s ok s' _ hstep
    rw [hstep.2]
    exact noKeyLeft_remove
  refine (LeavesNoKey.call (.inl rfl) hremove).bind fun _ => ?_
  refine (LeavesNoKey.call (.inl rfl) fun s ok s' hs hstep => ?_).bind fun _ => ?_
  · exact (show s' = s from hstep) ▸ hs
  refine leavesNoKey_signature.bind fun _ => ?_
  refine (LeavesNoKey.call (.inl rfl) fun s ok s' hs hstep => ?_).bind fun _ => ?_
  · exact hs.copy (by decide) hstep
  refine (LeavesNoKey.of_issues ?_).bind fun _ => LeavesNoKey.call (.inr rfl) hremove
  exact issues_run_unit.mpr fun _ path hpath => ne_of_atOrBelow (by decide) hpath

theorem issues_leavesSigning_buildUki {cmdline : String} :
    Issues LeavesSigning (buildUki cmdline) := by
  have huki : atOrBelow recoverySigningDirectory s!"{targetRoot}{recoveryUki}" = false := by
    decide
  simp only [buildUki, runAsChroot_, issues_bind, issues_run_unit]
  exact ⟨fun _ _ _ => rfl, fun _ _ _ path hpath => ne_of_atOrBelow huki hpath⟩

theorem leavesNoKey_buildFromPartition {uuid : String} :
    LeavesNoKey (buildFromPartition buildPath uuid) := by
  have hboot : ∀ bootFile ∈ [archisoKernel, archisoInitramfs],
      LeavesSigning (checked (.cp s!"{recoveryMount}/{bootFile}" s!"{buildPath}/")) := by
    have houtside : ∀ bootFile ∈ [archisoKernel, archisoInitramfs],
        atOrBelow recoverySigningDirectory
          (copiedFile s!"{recoveryMount}/{bootFile}" s!"{buildPath}/") = false := by
      decide
    exact fun bootFile hmem path hpath => ne_of_atOrBelow (houtside bootFile hmem) hpath
  refine LeavesNoKey.bind (.of_issues ?_) fun version => leavesNoKey_signRootImage.bind fun _ =>
    .of_issues (issues_bind.mpr ⟨?_, fun _ _ => ?_⟩)
  · exact issues_run.mpr fun _ _ _ => rfl
  · exact .forEach fun bootFile hmem => issues_run_unit.mpr fun _ => hboot bootFile hmem
  · exact issues_bind.mpr ⟨issues_leavesSigning_buildUki, fun _ _ => issues_pure⟩

theorem leavesNoKey_execute : LeavesNoKey (execute config) := by
  have hmount : ∀ path, atOrBelow recoverySigningDirectory path →
      atOrBelow recoveryMount path = false := fun path hpath =>
    atOrBelow_apart (by decide) (by decide) hpath
  have hbuild : ∀ path, atOrBelow recoverySigningDirectory path →
      atOrBelow buildPath path = false := fun path hpath =>
    atOrBelow_apart (by decide) (by decide) hpath
  have hclean : LeavesNoKey (cleanUp buildPath) := by
    simp only [cleanUp]
    refine .of_issues (issues_bind.mpr ⟨?_, fun _ _ => ?_⟩)
    · exact issues_tryRun_unit.mpr fun _ => hmount
    · exact issues_tryRun_unit.mpr fun _ => hbuild
  have hsign : Issues LeavesSigning signUki := by
    have hpath : atOrBelow recoverySigningDirectory s!"{targetRoot}{recoveryUki}" = false := by
      decide
    have huki : LeavesSigning (checked (.chroot (.sbctlSign recoveryUki))) :=
      fun path => ne_of_atOrBelow hpath
    have htest : LeavesSigning (unchecked (.test .file s!"{targetRoot}{sbctlDbKey}")) :=
      fun _ _ => rfl
    simp [signUki, fileExists, runAsChroot_, huki, htest]
  have hwrite : LeavesSigning ⟨.writeFile s!"{targetRoot}{recoveryEntryPath}", true, none⟩ :=
    fun path hpath => ne_of_atOrBelow (by decide) hpath
  refine LeavesNoKey.bind (.of_issues issues_info) fun _ => LeavesNoKey.bind (.of_issues ?_)
    fun uuid => LeavesNoKey.bind (.of_issues ?_) fun _ => LeavesNoKey.bind (.of_issues ?_)
    fun _ => (leavesNoKey_buildFromPartition.tryFinally hclean).bind fun version =>
    .of_issues (issues_bind.mpr ⟨?_, fun _ _ => hsign⟩)
  · exact issues_run.mpr fun _ _ _ => rfl
  · exact issues_run_unit.mpr fun _ _ _ => rfl
  · exact issues_run_unit.mpr fun _ => hmount
  · exact issues_writeFile.mpr fun _ => hwrite

/-! ## Which certificate the UKI brings -/

/-- A signature stays, shown or hidden, unless its file is made anew. -/
theorem signed_of_step {ok : Bool} {command : Command} {image : String} {id : Nat}
    (hs : s.Signed image id) (hstep : SigningEffect s ok s' command)
    (h : (∃ directory, command = .umount directory) ∨
      command.mayChange s!"{image}.cms.sig" = false) : s'.Signed image id := by
  rcases h with ⟨directory, rfl⟩ | h
  · rw [show s' = if ok then s.swap directory else s from hstep]
    cases ok with
    | false => exact hs
    | true =>
      simp only [SigningState.Signed, SigningState.swap, if_true] at hs ⊢
      split
      · exact hs.symm
      · exact hs
  · simpa only [SigningState.Signed, file_eq_of_mayChange hstep h,
      covered_eq_of_mayChange hstep h] using hs

/-- The certificate of the key that signed the root image is where it was made. -/
structure Certified (id : Nat) (s : SigningState) : Prop where
  certificate : s.file certificatePath = some (.certificate id)
  signed : s.Signed rootImagePath id

theorem returns_createSignature :
    Returns signingWorld s (createSignature rootImagePath) fun _ _ s' => Certified s.made s' := by
  refine (returns_run_unit (Q := fun _ _ mid => mid.file keyPath = some (.key s.made) ∧
    mid.file certificatePath = some (.certificate s.made)) fun result mid hstep hok => ?_).bind
    fun _ _ mid hmid => returns_run_unit fun result s' hstep hok => ?_
  · have hkey := NewKey.keyFile hstep
    have hcertificate := NewKey.certificateFile hstep
    simp only [Leaves, hok, if_true] at hkey hcertificate
    obtain ⟨_, hkey, rfl⟩ := hkey
    obtain ⟨_, hcertificate, rfl⟩ := hcertificate
    exact ⟨hkey, hcertificate⟩
  · have hmade := Makes.file hstep
    simp only [Leaves, hok, if_true] at hmade
    obtain ⟨_, hsignature, id, rfl, hkey, -⟩ := hmade
    obtain rfl : s.made = id := by
      have hsame := hmid.1.symm.trans hkey
      simpa using hsame
    refine ⟨?_, .inl hsignature⟩
    rw [file_eq_of_mayChange hstep (by decide), hmid.2]

/-- The archive that the UKI is built with. -/
def imagePath : String := s!"{buildPath}/{certificateInitramfs}"

def certificateImage (id : Nat) : Content :=
  .archive [(archisoCertificateFiles.1, .certificate id),
    (archisoCertificateFiles.2, .certificate id)]

structure CertificatePacked (id : Nat) (s : SigningState) : Prop where
  image : s.file imagePath = some (certificateImage id)
  signed : s.Signed rootImagePath id

theorem CertificatePacked.step {ok : Bool} {command : Command} {id : Nat}
    (hs : CertificatePacked id s) (hstep : SigningEffect s ok s' command)
    (himage : command.mayChange imagePath = false)
    (hsignature : command.mayChange s!"{rootImagePath}.cms.sig" = false) :
    CertificatePacked id s' where
  image := by rw [file_eq_of_mayChange hstep himage, hs.image]
  signed := signed_of_step hs.signed hstep (.inr hsignature)

theorem Certified.step {ok : Bool} {command : Command} {id : Nat}
    (hs : Certified id s) (hstep : SigningEffect s ok s' command)
    (hcertificate : command.mayChange certificatePath = false)
    (hsignature : command.mayChange s!"{rootImagePath}.cms.sig" = false) : Certified id s' where
  certificate := by rw [file_eq_of_mayChange hstep hcertificate, hs.certificate]
  signed := signed_of_step hs.signed hstep (.inr hsignature)

def secondCertificatePath : String :=
  s!"{recoverySigningDirectory}/{archisoCertificateFiles.2}"

/-- What is packed is the two files, in their order. -/
theorem packed_certificates {packed : List (String × Content)} {id : Nat}
    (hpacked : Packed s recoverySigningDirectory packed)
    (hnames : packed.map (·.1) =
      split " " s!"{archisoCertificateFiles.1} {archisoCertificateFiles.2}")
    (hfirst : s.file certificatePath = some (.certificate id))
    (hsecond : s.file secondCertificatePath = some (.certificate id)) :
    Content.archive packed = certificateImage id := by
  have hsplit : split " " s!"{archisoCertificateFiles.1} {archisoCertificateFiles.2}" =
      [archisoCertificateFiles.1, archisoCertificateFiles.2] := by decide
  rw [hsplit] at hnames
  obtain ⟨⟨name, first⟩, rest, rfl, hname, hrest⟩ := List.map_eq_cons_iff.mp hnames
  obtain ⟨⟨name', second⟩, rest', rfl, hname', hrest'⟩ := List.map_eq_cons_iff.mp hrest
  obtain rfl := List.map_eq_nil_iff.mp hrest'
  obtain rfl : name = archisoCertificateFiles.1 := hname
  obtain rfl : name' = archisoCertificateFiles.2 := hname'
  have hfirst' : s.file certificatePath = some first := hpacked (_, first) (by simp)
  have hsecond' : s.file secondCertificatePath = some second := hpacked (_, second) (by simp)
  rw [hfirst, Option.some.injEq] at hfirst'
  rw [hsecond, Option.some.injEq] at hsecond'
  rw [← hfirst', ← hsecond']
  rfl

theorem returns_signRootImage :
    Returns signingWorld s (signRootImage buildPath) fun _ _ s' => CertificatePacked s.made s' := by
  refine (returns_run_unit (Q := fun _ _ mid => mid.made = s.made) fun _ mid hstep _ => ?_).bind
    fun _ _ s₁ h₁ => ?_
  · rw [hstep.2, SigningState.remove]
  refine (returns_run_unit (Q := fun _ _ mid => mid.made = s.made) fun _ mid hstep _ => ?_).bind
    fun _ _ s₂ h₂ => ?_
  · rw [show mid = s₁ from hstep, h₁]
  refine Returns.bind (Q := fun _ _ mid => Certified s.made mid) ?_ fun _ _ s₃ h₃ => ?_
  · refine returns_createSignature.tryFinally fun _ _ mid hmid => returns_tryRun_unit
      fun result s' hstep => ?_
    rw [← h₂]
    exact hmid.step hstep (by decide) (by decide)
  refine (returns_run_unit (Q := fun _ _ mid => Certified s.made mid ∧
    mid.file secondCertificatePath = some (.certificate s.made)) fun _ mid hstep hok => ?_).bind fun _ _ s₄ h₄ => ?_
  · refine ⟨h₃.step hstep (by decide) (by decide), ?_⟩
    have hmade := Makes.file hstep
    simp only [Leaves, hok, if_true] at hmade
    obtain ⟨content, hcontent, hsource⟩ := hmade
    have hdestination : copiedFile certificatePath secondCertificatePath = secondCertificatePath := by
      decide
    have hfile : mid.file secondCertificatePath = some content := hdestination ▸ hcontent
    rw [hfile, ← hsource]
    exact h₃.certificate
  refine (returns_run_unit (Q := fun _ _ mid => CertificatePacked s.made mid)
    fun _ mid hstep hok => ?_).bind fun _ _ s₅ h₅ => ?_
  · have hmade := Makes.file hstep
    simp only [Leaves, hok, if_true] at hmade
    obtain ⟨_, himage, packed, rfl, hpacked, hnames, -⟩ := hmade
    refine ⟨?_, signed_of_step h₄.1.signed hstep (.inr (by decide))⟩
    rw [packed_certificates hpacked (hnames trivial) h₄.1.certificate h₄.2] at himage
    exact himage
  · exact returns_tryRun_unit fun _ s' hstep => h₅.step hstep (by decide) (by decide)

def KeepsImage (invocation : Invocation) : Prop :=
  invocation.command.mayChange imagePath = false ∧
    invocation.command.mayChange s!"{rootImagePath}.cms.sig" = false

theorem returns_of_keepsImage {α : Type} {p : Script α} {id : Nat} (h : Issues KeepsImage p)
    (hs : CertificatePacked id s) :
    Returns signingWorld s p fun _ _ s' => CertificatePacked id s' :=
  fun _ _ _ hrun hreplay => h.preserves (P := CertificatePacked id)
    (fun _ _ _ _ hgood hmid hstep => hmid.step hstep hgood.1 hgood.2) allAllowed_true hrun hreplay hs

/-- The UKI is built, and what signed the root image fits it. -/
structure UkiBuilt (id : Nat) (s : SigningState) : Prop where
  uki : ∃ initrds, s.file s!"{targetRoot}{recoveryUki}" = some (.uki initrds) ∧
    initrds.getLast? = some (certificateImage id)
  signed : s.Signed rootImagePath id

theorem UkiBuilt.step {ok : Bool} {command : Command} {id : Nat} (hs : UkiBuilt id s)
    (hstep : SigningEffect s ok s' command)
    (huki : command.mayChange s!"{targetRoot}{recoveryUki}" = false)
    (hsignature : (∃ directory, command = .umount directory) ∨
      command.mayChange s!"{rootImagePath}.cms.sig" = false) : UkiBuilt id s' where
  uki := by rw [file_eq_of_mayChange hstep huki]; exact hs.uki
  signed := signed_of_step hs.signed hstep hsignature

theorem returns_buildUki {id : Nat} {cmdline : String} (hs : CertificatePacked id s) :
    Returns signingWorld s (buildUki cmdline) fun _ _ s' => UkiBuilt id s' := by
  have hoverwrites : (s!"{rootImagePath}.cms.sig" == s!"{targetRoot}{recoveryUki}") = false := by
    decide
  have himage : toString targetRoot ++ toString (toString recoveryBuildDirectory ++ toString "/" ++
      toString certificateInitramfs) = imagePath := by
    decide
  refine (returns_of_keepsImage (issues_run_unit.mpr fun _ => ⟨rfl, rfl⟩) hs).bind
    fun _ _ mid hmid => ?_
  refine returns_run_unit fun _ s' hstep hok => ⟨?_, ?_⟩
  · have hmade := Makes.file hstep
    simp only [Leaves, hok, if_true] at hmade
    obtain ⟨_, huki, images, rfl, himages⟩ := hmade
    refine ⟨images, huki, ?_⟩
    simp only [List.map_cons, List.map_nil, himage, hmid.image] at himages
    obtain ⟨first, rest, rfl, -, hrest⟩ := List.map_eq_cons_iff.mp himages.symm
    obtain ⟨last, rest', rfl, hlast, hend⟩ := List.map_eq_cons_iff.mp hrest
    obtain rfl := List.map_eq_nil_iff.mp hend
    obtain rfl : last = certificateImage id := Option.some.inj hlast
    rfl
  · exact signed_of_step hmid.signed hstep (.inr hoverwrites)

theorem returns_buildFromPartition {uuid : String} :
    Returns signingWorld s (buildFromPartition buildPath uuid) fun _ _ s' => UkiBuilt s.made s' := by
  have hboot : ∀ bootFile ∈ [archisoKernel, archisoInitramfs],
      (imagePath == copiedFile s!"{recoveryMount}/{bootFile}" s!"{buildPath}/") = false ∧
        (s!"{rootImagePath}.cms.sig" ==
          copiedFile s!"{recoveryMount}/{bootFile}" s!"{buildPath}/") = false := by
    decide
  have hkeeps : Issues KeepsImage (Program.forEach [archisoKernel, archisoInitramfs] fun bootFile =>
      run_ (.cp s!"{recoveryMount}/{bootFile}" s!"{buildPath}/")) :=
    .forEach fun bootFile hmem => issues_run_unit.mpr fun _ => hboot bootFile hmem
  refine (returns_run (Q := fun _ _ mid => mid = s) fun _ mid hstep _ => hstep).bind
    fun _ version mid hmid => ?_
  subst hmid
  refine returns_signRootImage.bind fun _ _ s₁ h₁ => ?_
  refine (returns_of_keepsImage hkeeps h₁).bind fun _ _ s₂ h₂ => ?_
  exact (returns_buildUki h₂).bind fun _ _ s₃ h₃ => returns_ret h₃

theorem returns_cleanUp {id : Nat} (hs : UkiBuilt id s) :
    Returns signingWorld s (cleanUp buildPath) fun _ _ s' => UkiBuilt id s' := by
  refine (returns_tryRun_unit (Q := fun _ _ mid => UkiBuilt id mid) fun _ mid hstep => ?_).bind
    fun _ _ mid hmid => returns_tryRun_unit fun _ s' hstep => ?_
  · exact hs.step hstep (by decide) (.inl ⟨_, rfl⟩)
  · exact hmid.step hstep (by decide) (.inr (by decide))

theorem returns_signUki {id : Nat} (hs : UkiBuilt id s) :
    Returns signingWorld s signUki fun _ _ s' => UkiBuilt id s' := by
  refine Returns.bind (Q := fun _ _ mid => mid = s) ?_ fun _ keysExist mid hmid => ?_
  · intro exchanges value mid hrun hreplay
    obtain ⟨result, rfl, -⟩ := runs_probe_returned_iff.mp hrun
    obtain ⟨_, hstep, hend⟩ := replays_cons_iff.mp hreplay
    exact (replays_nil_iff.mp hend).trans hstep
  · subst hmid
    cases keysExist with
    | false => exact returns_log.mpr (returns_ret hs)
    | true =>
      refine returns_run_unit fun _ s' hstep hok => ?_
      have hsame : s' = mid := by
        simpa [signingWorld, SigningEffect, hok] using hstep
      exact hsame ▸ hs

theorem returns_writeEntry {id : Nat} {entry : String} (hs : UkiBuilt id s) :
    Returns signingWorld s (writeFile s!"{targetRoot}{recoveryEntryPath}" entry)
      fun _ _ s' => UkiBuilt id s' := by
  have hother : (s!"{targetRoot}{recoveryUki}" == s!"{targetRoot}{recoveryEntryPath}") = false := by
    decide
  have hsignature : (s!"{rootImagePath}.cms.sig" ==
      s!"{targetRoot}{recoveryEntryPath}") = false := by
    decide
  have hissues : Issues (fun i => i.command = .writeFile s!"{targetRoot}{recoveryEntryPath}")
      (writeFile s!"{targetRoot}{recoveryEntryPath}" entry) := by
    simp
  refine fun _ _ _ hrun hreplay => hissues.preserves (P := UkiBuilt id)
    (fun i _ _ _ hcommand hmid hstep => ?_) allAllowed_true hrun hreplay hs
  rw [signingWorld, hcommand] at hstep
  exact hmid.step hstep hother (.inr hsignature)

theorem returns_execute :
    Returns signingWorld s (execute config) fun _ _ s' => UkiBuilt s.made s' := by
  refine Returns.bind (Q := fun _ _ mid => mid = s) (returns_log.mpr (returns_ret rfl))
    fun _ _ mid hmid => ?_
  subst hmid
  refine (returns_run (Q := fun _ _ mid' => mid' = mid) fun _ _ hstep _ => hstep).bind
    fun _ uuid s₁ h₁ => ?_
  subst h₁
  refine (returns_run_unit (Q := fun _ _ mid => mid = s₁) fun _ _ hstep _ => hstep).bind
    fun _ _ s₂ h₂ => ?_
  subst h₂
  refine (returns_run_unit (Q := fun _ _ mid => mid.made = s₂.made) fun result mid hstep _ => ?_).bind
    fun _ _ s₃ h₃ => ?_
  · rw [show mid = if result.success then s₂.swap recoveryMount else s₂ from hstep]
    split <;> rfl
  rw [← h₃]
  refine Returns.bind (Q := fun _ _ mid => UkiBuilt s₃.made mid)
    (returns_buildFromPartition.tryFinally fun _ _ _ hmid => returns_cleanUp hmid)
    fun _ version s₄ h₄ => ?_
  exact (returns_writeEntry h₄).bind fun _ _ s₅ h₅ => returns_signUki h₅

theorem UkiBuilt.ukiFits {id : Nat} (h : UkiBuilt id s) (hid : made ≤ id) : UkiFits made s := by
  obtain ⟨initrds, huki, hlast⟩ := h.uki
  exact ⟨id, initrds, hid, h.signed, huki, hlast⟩

/-! ## The key outlives no run that starts without one -/

/-- Asking for the UUID of the recovery partition fails, and that is all that happens. -/
theorem runs_execute_at_once (config : InstallerConfig) :
    Runs (execute config) [(checked (.blkidUuid config.usbBoot.recoveryPartition), DiskState.failed)]
      (.raised (.command (Command.blkidUuid config.usbBoot.recoveryPartition).text 1 "" "")) := by
  have hinfo : Runs (info s!"Building the signed recovery system from {
      config.usbBoot.recoveryPartition}...") [] (.returned ()) := runs_info_returned_iff.mpr rfl
  exact hinfo.seq (runs_bind_iff.mpr (.inr (.inl ⟨_, runs_invoke_iff.mpr (.inr ⟨DiskState.failed, rfl,
    .inl rfl⟩), rfl⟩)))

theorem KeyNeverOutlives.noKeyLeft (h : KeyNeverOutlives config s) : NoKeyLeft s :=
  (h _ _ s (runs_execute_at_once config) (.cons rfl .nil)).2.2.1 (by simp)

theorem keyNeverOutlives_iff : KeyNeverOutlives config s ↔ NoKeyLeft s := by
  refine ⟨KeyNeverOutlives.noKeyLeft, fun hs exchanges outcome s' hrun hreplay => ?_⟩
  have hminds : ∀ x ∈ exchanges, MindsKey x.1 := issues_mindsKey.of_runs hrun
  have hkey : OnlyAtKeyPath s.made s' := hreplay.preserves
    (fun x hx _ _ hmid hstep => OnlyAtKeyPath.step hmid (hminds x hx) hstep) .start
  refine ⟨hkey.keysStay, fun x hx => (hminds x hx).keyFiles,
    fun hended => leavesNoKey_execute s hs exchanges outcome s' hrun hreplay hended, ?_⟩
  rintro rfl
  exact (returns_execute exchanges () s' hrun hreplay).ukiFits (Nat.le_refl _)

def recoveryConfig : InstallerConfig :=
  { sampleUsbConfig with
    usbBoot := { sampleUsbConfig.usbBoot with recoverySystem := true, isoPath := "/root/arch.iso" } }

/-- An earlier run was killed while it had its key. -/
def keyLeftBehind : SigningState where
  file path := if path = keyPath then some (.key 0) else none
  covered _ := none
  made := 1
  known path content id h hholds := by
    obtain ⟨-, rfl⟩ : path = keyPath ∧ Content.key 0 = content := by simpa using h
    simpa using hholds

theorem not_keyNeverOutlives : ¬ KeyNeverOutlives recoveryConfig keyLeftBehind := by
  intro h
  have hbelow : atOrBelow recoverySigningDirectory keyPath := by decide
  exact h.noKeyLeft keyPath 0 hbelow rfl

end RecoverySystemStepExecutor

end ArchInstaller
