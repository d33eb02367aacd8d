import ArchInstaller.Config.EnvironmentText
import ArchInstaller.Interaction.Simulate
import ArchInstaller.Setup.Session
import ArchInstaller.Verify.KnownPaths

/-! # What the setup asks

The conditions of the install steps read settings that earlier questions decide, so what a session
makes of them on its way is what the finished configuration makes of them. -/

namespace ArchInstaller

open Interaction PyData PyText

/-! ## The claim -/

/-- The step and the label of the question, except on the last screen. -/
def Ask.subject : Ask → Option (String × String)
  | switch step question _ | chooseOne step question _ _ | chooseMany step question _
  | enterText step question _ | keepSecret step question _ | enterSecret step question =>
    some (step, question.label)
  | review _ => none

/-- A setting is asked by one request, or, where the inherited secret is not kept, by two. -/
inductive AskedIn (entry : String × StepSetting) : List (Ask × PyValue) → Prop
  | once {question : Question} {ask : Ask} {answer : PyValue} (hquestion : entry.2.question = some question)
    (hsubject : ask.subject = some (entry.1, question.label)) : AskedIn entry [(ask, answer)]
  | replaced {question : Question} {source : String} {kept entered : PyValue}
    (hquestion : entry.2.question = some question) : AskedIn entry
      [(.keepSecret entry.1 question source, kept), (.enterSecret entry.1 question, entered)]

/-- The choices that the front-end was given. -/
def offeredIn : List (Ask × PyValue) → List Choice
  | [(.chooseOne _ _ choices _, _)] => choices
  | _ => []

/-- The setting has a question, and the condition for asking it holds. -/
def isAsked (value : SettingLookup) (entry : String × StepSetting) : Bool :=
  entry.2.question.isSome && entry.2.askedWhen value

/-- The row shows a setting's value and source. -/
structure IsSummary (python : PyBuiltins) (final : List (String × SettingValue))
    (entry : String × StepSetting) (part : List (Ask × PyValue)) (row : SummaryRow) : Prop where
  step : row.step = entry.1
  chosen : ∃ question chosen, entry.2.question = some question ∧
    final.lookup entry.2.path = some chosen ∧ row.label = question.label ∧
    row.source = chosen.source.value ∧
    shownValue python (offeredIn part) question chosen.value = .ok row.value

/-- In every run each setting is asked at most once, in the order of the steps. Where a
configuration is built in the end, the settings whose conditions hold in it were asked, and no
others, the others have their inherited values, and the last screen showed what was chosen. -/
structure AsksWhatIsRelevant (python : PyBuiltins) (inherited : List (String × SettingValue))
    (disks : List Disk) : Prop where
  order : ∀ {exchanges outcome}, Runs (runSetup python inherited disks) exchanges outcome →
    ∃ asked parts last, asked.Sublist setupSettings ∧ (asked.map fun entry => entry.2.path).Nodup ∧
      List.Forall₂ AskedIn asked parts ∧ exchanges = parts.flatten ++ last ∧
      (last = [] ∨ ∃ rows confirmed, last = [(.review rows, confirmed)])
  relevant : ∀ {exchanges answers config},
    Runs (runSetup python inherited disks) exchanges (.returned answers) →
    buildInstallerConfig (plainValues (applyTuiChoices inherited answers)) = .ok config →
    ∃ asked parts rows confirmed, asked = setupSettings.filter (isAsked (configLookup config)) ∧
      List.Forall₂ AskedIn asked parts ∧
      exchanges = parts.flatten ++ [(.review rows, confirmed)] ∧
      (∀ path ∉ asked.map fun entry => entry.2.path,
        (applyTuiChoices inherited answers).lookup path = inherited.lookup path) ∧
      List.Forall₂ (fun (entry, part) =>
        IsSummary python (applyTuiChoices inherited answers) entry part) (asked.zip parts) rows

/-! ## Settings in the configuration -/

theorem Fields.setting_of_typeAt {declared : Fields} {names : List String} {type : FieldType}
    (h : declared.typeAt names = some type) (hleaf : type.isSection = false) :
    ∃ setting : Setting declared type, setting.names = names := by
  induction names generalizing declared with
  | nil => cases h
  | cons name names ih =>
    cases names with
    | nil => exact (Fields.setting_of_typeOf h).1 hleaf
    | cons name' names =>
      rw [typeAt] at h
      · split at h
        · next inner htype =>
          obtain ⟨setting, hnames⟩ := ih h
          obtain ⟨setting', hnames'⟩ := (Fields.setting_of_typeOf htype).2 inner rfl type setting
          exact ⟨setting', by rw [hnames', hnames]⟩
        · cases h
      · exact List.cons_ne_nil _ _

/-- The path of a setting of a kind of types. -/
def isSettingPath (kind : FieldType → Bool) (path : String) : Bool :=
  (settingType path).any (fun type => !type.isSection && kind type) &&
    join "." (split "." path) == path

theorem setting_of_isSettingPath {kind : FieldType → Bool} {path : String}
    (h : isSettingPath kind path) :
    ∃ type, kind type ∧ ∃ setting : Setting InstallerConfig.fields type, path = setting.path := by
  rw [isSettingPath, Bool.and_eq_true, Option.any_eq_true] at h
  obtain ⟨⟨type, htype, hkind⟩, hpath⟩ := h
  rw [Bool.and_eq_true, Bool.not_eq_true'] at hkind
  obtain ⟨setting, hnames⟩ := Fields.setting_of_typeAt htype hkind.1
  exact ⟨type, hkind.2, setting, by rw [Setting.path, hnames, beq_iff_eq.mp hpath]⟩

theorem Setting.attribute_eq {declared : Fields} {type : FieldType} (setting : Setting declared type)
    (hformed : declared.wellFormed) (built : declared.Value) {name : String} {names : List String}
    (hnames : setting.names = name :: names) :
    declared.attribute built name names = some (type.data (setting.get built)) := by
  induction setting generalizing name names with
  | @here name' type rest leaf =>
    cases hnames
    rw [Fields.attribute, if_pos rfl]
    cases type <;> rfl
  | @within name' inner rest type setting ih =>
    simp only [Fields.wellFormed, FieldType.wellFormed, Bool.and_eq_true] at hformed
    cases hnames
    obtain ⟨name'', names', hinner⟩ := List.exists_cons_of_ne_nil setting.names_ne_nil
    rw [Fields.attribute, if_pos rfl, hinner, FieldType.attribute]
    exact ih hformed.1.2.2 _ hinner
  | @later name' first rest type setting ih =>
    have hall := hformed
    simp only [Fields.wellFormed, Bool.and_eq_true] at hformed
    have hne : name' ≠ name := by
      rintro rfl
      have hmem := setting.head_mem hnames
      simp [hmem] at hformed
    rw [Fields.attribute, if_neg hne]
    exact ih hformed.2 _ hnames

theorem configLookup_path {config : InstallerConfig} {type : FieldType}
    (setting : Setting InstallerConfig.fields type) :
    configLookup config setting.path =
      type.data (setting.get (InstallerConfig.equiv.symm config)) := by
  have hformed := BySetting.installerFields_wellFormed
  obtain ⟨name, names, hnames⟩ := List.exists_cons_of_ne_nil setting.names_ne_nil
  rw [configLookup, setting.split_path hformed, hnames, FieldType.attribute,
    setting.attribute_eq hformed _ hnames, Option.getD_some]

/-! ## Conditions -/

/-- Values that no condition tells apart. -/
structure Alike (value value' : PyValue) : Prop where
  truth : value.truth = value'.truth
  named : ∀ name, name ≠ "" → value.eq (.member name) = value'.eq (.member name)

theorem Alike.of_eq {value value' : PyValue} (h : value = value') : Alike value value' := by
  subst h
  exact ⟨rfl, fun _ _ => rfl⟩

/-- The types of the settings that conditions read. -/
def isConditionType : FieldType → Bool
  | .bool | .enum _ => true
  | _ => false

theorem ReadsText.of_eq {value current : PyValue} {text : String} (h : ReadsText value text)
    (heq : value.eq current) : ReadsText current text := by
  rwa [← readText_eq_some_iff, ← readText_eq_of_eq heq, readText_eq_some_iff]

theorem ReadsText.alike {current : PyValue} {text : String} (h : ReadsText current text) :
    Alike (.member text) current := by
  rcases h with ⟨rfl, rfl⟩ | htext
  · refine ⟨rfl, fun name hname => ?_⟩
    simp [PyValue.eq, PyValue.eqScalar, PyValue.text, PyValue.number, Ne.symm hname]
  · cases current <;> cases htext <;> exact ⟨rfl, fun _ _ => rfl⟩

theorem truth_of_number {value : PyValue} {number : Rat} (h : value.number = some (.finite number)) :
    value.truth = decide (number ≠ 0) := by
  cases value with
  | bool truth =>
    simp only [PyValue.number, Option.some.injEq, PyFloat.finite.injEq] at h
    subst h
    cases truth <;> rfl
  | int value =>
    simp only [PyValue.number, Option.some.injEq, PyFloat.finite.injEq] at h
    subst h
    simp [PyValue.truth]
  | float value =>
    simp only [PyValue.number, Option.some.injEq] at h
    subst h
    simp [PyValue.truth]
  | _ => cases h

theorem eq_member_of_number {value : PyValue} {number : PyFloat} (h : value.number = some number)
    (name : String) : value.eq (.member name) = false := by
  cases value <;> first | rfl | cases h

theorem alike_bool {truth : Bool} {current : PyValue} (h : (PyValue.bool truth).eq current) :
    Alike (.bool truth) current := by
  have hnumber : current.number = some (.finite (if truth then 1 else 0)) := by
    cases current <;>
      simp_all [PyValue.eq, PyValue.eqScalar, PyValue.text, PyValue.number, PyFloat.eq_iff]
  refine ⟨?_, fun name _ => ?_⟩
  · rw [truth_of_number hnumber]
    cases truth <;> rfl
  · rw [eq_member_of_number hnumber]
    rfl

/-- What is read as a value, or equals what is, is like the value. -/
theorem alike_data {type : FieldType} (htype : isConditionType type) {value current : PyValue}
    {converted : type.Value} (hreads : type.Reads value converted)
    (hcurrent : current = value ∨ value.eq current) : Alike (type.data converted) current := by
  have hdenotes := hreads.denotes
  cases type with
  | bool =>
    obtain rfl := leaf_of_viewOf hdenotes
    rcases hcurrent with rfl | heq
    · exact Alike.of_eq rfl
    · exact alike_bool heq
  | enum type =>
    obtain ⟨value', hleaf, htext⟩ := hdenotes
    obtain rfl := leaf_of_viewOf hleaf
    rcases hcurrent with rfl | heq
    · exact htext.alike
    · exact (htext.of_eq heq).alike
  | _ => cases htype

/-- The settings that conditions read. -/
def conditionPaths : List String :=
  ["migration.enabled", "usb_boot.enabled", "usb_boot.recovery_system", "storage.swap.enabled",
    "gpu.vendor"]

/-- The condition says the same of values that are alike at some of these paths. -/
def ReadsOnly (paths : List String) (condition : StepCondition) : Prop :=
  ∃ read, read ⊆ paths ∧ read ⊆ conditionPaths ∧ ∀ value value' : SettingLookup,
    (∀ path ∈ read, Alike (value path) (value' path)) → condition value = condition value'

theorem readsOnly_always {paths : List String} : ReadsOnly paths always :=
  ⟨[], List.nil_subset _, List.nil_subset _, fun _ _ _ => rfl⟩

theorem readsOnly_whenSet {paths : List String} {path : String} (hpath : path ∈ paths)
    (hcondition : path ∈ conditionPaths) : ReadsOnly paths (whenSet path) := by
  refine ⟨[path], by simpa using hpath, by simpa using hcondition, fun value value' h => ?_⟩
  exact (h path (List.mem_singleton_self _)).truth

theorem readsOnly_whenEqual {paths : List String} {path name : String} (hpath : path ∈ paths)
    (hcondition : path ∈ conditionPaths) (hname : name ≠ "") :
    ReadsOnly paths (whenEqual path (.member name)) := by
  refine ⟨[path], by simpa using hpath, by simpa using hcondition, fun value value' h => ?_⟩
  exact (h path (List.mem_singleton_self _)).named name hname

theorem readsOnly_recoverySystemWanted {paths : List String} (hpaths : "usb_boot.enabled" ∈ paths)
    (hpaths' : "usb_boot.recovery_system" ∈ paths) : ReadsOnly paths recoverySystemWanted := by
  refine ⟨["usb_boot.enabled", "usb_boot.recovery_system"], by simp [hpaths, hpaths'],
    by simp [conditionPaths], fun value value' h => ?_⟩
  rw [recoverySystemWanted, recoverySystemWanted, (h "usb_boot.enabled" (by simp)).truth,
    (h "usb_boot.recovery_system" (by simp)).truth]

/-- Every condition reads settings that come before. -/
def ReadsEarlier : List String → List (String × StepSetting) → Prop
  | _, [] => True
  | earlier, entry :: entries =>
    ReadsOnly earlier entry.2.askedWhen ∧ ReadsEarlier (earlier ++ [entry.2.path]) entries

theorem readsEarlier_setupSettings : ReadsEarlier [] setupSettings := by
  simp only [setupSettings, installStepSettings, migrationStagingSettings, usbBootDriveSettings,
    storageSettings, packagesSettings, systemSettings, dockerSettings, bootableSnapshotsSettings,
    snapshotNotificationsSettings, firewallSettings, List.flatMap_cons, List.flatMap_nil,
    List.map_cons, List.map_nil, List.cons_append, List.nil_append, List.append_nil, ReadsEarlier]
  repeat' apply And.intro
  all_goals
    first
    | exact trivial
    | exact readsOnly_always
    | exact readsOnly_whenSet (by decide) (by decide)
    | exact readsOnly_whenEqual (by decide) (by decide) (by decide)
    | exact readsOnly_recoverySystemWanted (by decide) (by decide)

theorem ReadsEarlier.readsOnly {earlier : List String} {done : List (String × StepSetting)}
    {entry : String × StepSetting} {left : List (String × StepSetting)}
    (h : ReadsEarlier earlier (done ++ entry :: left)) :
    ReadsOnly (earlier ++ done.map fun entry => entry.2.path) entry.2.askedWhen := by
  induction done generalizing earlier with
  | nil => simpa using h.1
  | cons first done ih => simpa using ih h.2

theorem nodup_setupSettings : (setupSettings.map fun entry => entry.2.path).Nodup := by
  decide +kernel

theorem isSettingPath_setupSettings :
    ∀ entry ∈ setupSettings, isSettingPath (fun _ => true) entry.2.path := by
  decide +kernel

theorem isSettingPath_conditionPaths : ∀ path ∈ conditionPaths, isSettingPath isConditionType path := by
  decide +kernel

theorem isAsked_eq {value value' : SettingLookup} {done left : List (String × StepSetting)}
    {entry : String × StepSetting} (hsplit : setupSettings = done ++ entry :: left)
    (h : ∀ path ∈ done.map (fun entry => entry.2.path), path ∈ conditionPaths →
      Alike (value path) (value' path)) : isAsked value entry = isAsked value' entry := by
  have hearlier := readsEarlier_setupSettings
  rw [hsplit] at hearlier
  obtain ⟨read, hdone, hcondition, hread⟩ := hearlier.readsOnly
  rw [isAsked, isAsked, hread value value' fun path hpath => h path (hdone hpath) (hcondition hpath)]

/-- Values that are alike decide the same of settings whose conditions read them. -/
theorem filter_isAsked_eq {value value' : SettingLookup} {done left : List (String × StepSetting)}
    (hsplit : setupSettings = done ++ left)
    (h : ∀ path ∈ done.map (fun entry => entry.2.path), path ∈ conditionPaths →
      Alike (value path) (value' path)) :
    done.filter (isAsked value) = done.filter (isAsked value') := by
  refine List.filter_congr fun entry hentry => ?_
  obtain ⟨before, after, rfl⟩ := List.append_of_mem hentry
  refine @isAsked_eq _ _ before (after ++ left) _ (by rw [hsplit, List.append_assoc]; rfl)
    fun path hpath => h path ?_
  rw [List.map_append]
  exact List.mem_append_left _ hpath

/-! ## One question -/

section

variable {python : PyBuiltins} {inherited : List (String × SettingValue)} {disks : List Disk}
  {exchanges : List (Ask × PyValue)}

theorem runs_ofExcept_bind {α β : Type} {result : Except SetupError α} {f : α → SetupProgram β}
    {outcome : Outcome SetupError β} (h : Runs (Program.ofExcept result >>= f) exchanges outcome) :
    (∃ value, result = .ok value ∧ Runs (f value) exchanges outcome) ∨
      (exchanges = [] ∧ ∀ value, outcome ≠ .returned value) := by
  cases result with
  | ok value => exact .inl ⟨value, rfl, h⟩
  | error error =>
    obtain ⟨rfl, rfl | rfl⟩ := runs_raise_iff.mp h <;> exact .inr ⟨rfl, by simp⟩

/-- A program without requests. -/
def Silent {α : Type} (p : SetupProgram α) : Prop :=
  ∀ exchanges outcome, Runs p exchanges outcome → exchanges = []

theorem silent_ret {α : Type} {value : α} : Silent (.ret value) :=
  fun _ _ h => (runs_ret_iff.mp h).1

theorem Silent.ofExcept_bind {α β : Type} {result : Except SetupError α} {f : α → SetupProgram β}
    (h : ∀ value, Silent (f value)) : Silent (Program.ofExcept result >>= f) := by
  intro exchanges outcome hrun
  rcases runs_ofExcept_bind hrun with ⟨value, -, hrest⟩ | ⟨hnil, -⟩
  · exact h value _ _ hrest
  · exact hnil

/-- The setting is asked with these choices, unless the session ends before. -/
def Asks {α : Type} (entry : String × StepSetting) (offered : List Choice) (p : SetupProgram α) :
    Prop :=
  ∀ exchanges outcome, Runs p exchanges outcome →
    (AskedIn entry exchanges ∧ offeredIn exchanges = offered) ∨
      (exchanges = [] ∧ ∀ value, outcome ≠ .returned value)

variable {entry : String × StepSetting} {question : Question} {offered : List Choice}

theorem asks_request {α : Type} {ask : Ask} {rest : PyValue → SetupProgram α}
    (hquestion : entry.2.question = some question)
    (hsubject : ask.subject = some (entry.1, question.label))
    (hoffered : ∀ answer, offeredIn [(ask, answer)] = offered) (h : ∀ answer, Silent (rest answer)) :
    Asks entry offered (.request ask rest) := by
  intro exchanges outcome hrun
  rcases runs_request_iff.mp hrun with ⟨rfl, rfl⟩ | ⟨answer, tail, rfl, hrest⟩
  · exact .inr ⟨rfl, by simp⟩
  · rw [h answer _ _ hrest]
    exact .inl ⟨.once hquestion hsubject, hoffered answer⟩

theorem Asks.ofExcept_bind {α β : Type} {result : Except SetupError α} {f : α → SetupProgram β}
    (h : ∀ value, Asks entry offered (f value)) :
    Asks entry offered (Program.ofExcept result >>= f) := by
  intro exchanges outcome hrun
  rcases runs_ofExcept_bind hrun with ⟨value, -, hrest⟩ | hnil
  · exact h value _ _ hrest
  · exact .inr hnil

theorem Asks.map {α β : Type} {p : SetupProgram α} {f : α → β} (h : Asks entry offered p) :
    Asks entry offered (do return f (← p)) := by
  intro exchanges outcome hrun
  rcases runs_bind_iff.mp hrun with
    ⟨first, value, second, rfl, hfirst, hsecond⟩ | ⟨error, hraised, rfl⟩ | ⟨hstopped, rfl⟩
  · obtain ⟨rfl, -⟩ := runs_pure_iff.mp hsecond
    rw [List.append_nil]
    rcases h _ _ hfirst with hasked | ⟨-, hnot⟩
    · exact .inl hasked
    · exact absurd rfl (hnot value)
  · exact (h _ _ hraised).imp_right fun hnil => ⟨hnil.1, by simp⟩
  · exact (h _ _ hstopped).imp_right fun hnil => ⟨hnil.1, by simp⟩

theorem asks_enterText {shown : Question} {previous : Option SettingValue}
    (hquestion : entry.2.question = some question) (hlabel : shown.label = question.label) :
    Asks entry [] (SetupSession.enterText python entry.1 shown previous) :=
  Asks.ofExcept_bind fun _ =>
    asks_request hquestion (by rw [Ask.subject, hlabel]) (fun _ => rfl) fun _ => silent_ret

theorem asks_chooseMany {previous : Option SettingValue}
    (hquestion : entry.2.question = some question) :
    Asks entry [] (SetupSession.chooseMany python entry.1 question previous) := by
  refine Asks.ofExcept_bind fun shown => asks_request hquestion rfl (fun _ => rfl) fun chosen => ?_
  cases previous with
  | none => exact silent_ret
  | some setting =>
    exact Silent.ofExcept_bind fun _ => Silent.ofExcept_bind fun _ => silent_ret

theorem asks_secret (hquestion : entry.2.question = some question) (previous : Option SettingValue) :
    Asks entry [] (SetupSession.secret entry.1 question previous) := by
  have entered : Asks entry [] (.request (.enterSecret entry.1 question) .ret) :=
    asks_request hquestion rfl (fun _ => rfl) fun _ => silent_ret
  cases previous with
  | none => exact entered
  | some setting =>
    rw [SetupSession.secret]
    split
    · intro exchanges outcome hrun
      rcases runs_request_iff.mp hrun with ⟨rfl, rfl⟩ | ⟨kept, tail, rfl, hrest⟩
      · exact .inr ⟨rfl, by simp⟩
      · split at hrest
        · obtain ⟨rfl, -⟩ := runs_ret_iff.mp hrest
          exact .inl ⟨.once hquestion rfl, rfl⟩
        · rcases runs_request_iff.mp hrest with ⟨rfl, -⟩ | ⟨answer, tail', rfl, hret⟩
          · exact .inl ⟨.once hquestion rfl, rfl⟩
          · obtain ⟨rfl, -⟩ := runs_ret_iff.mp hret
            exact .inl ⟨.replaced hquestion, rfl⟩
    · exact entered

/-- The session with choices that were offered, if there were any. -/
def SetupSession.offering (session : SetupSession) (settingPath : String) (offered : List Choice) :
    SetupSession :=
  if offered.isEmpty then session
  else { session with offeredChoices := assign settingPath offered session.offeredChoices }

variable (python inherited disks) in
/-- One question: the setting is asked, and what is left of the session says what was offered. -/
theorem answer_spec (session : SetupSession) (step : String) (setting : StepSetting) :
    ∃ offered, Asks (step, setting) offered (session.answer python inherited disks step setting) ∧
      ∀ exchanges answer session', Runs (session.answer python inherited disks step setting) exchanges
        (.returned (answer, session')) → session' = session.offering setting.path offered := by
  have kept : ∀ {p : SetupProgram PyValue} {exchanges answer session'},
      Runs (do return (← p, session)) exchanges (.returned (answer, session')) →
        session' = session.offering setting.path [] := by
    intro p exchanges answer session' hrun
    obtain ⟨first, mid, second, -, -, hsecond⟩ := runs_bind_returned_iff.mp hrun
    obtain ⟨-, hret⟩ := runs_pure_iff.mp hsecond
    have hpair : (answer, session') = (mid, session) := by simpa using hret
    exact (Prod.ext_iff.mp hpair).2
  rw [SetupSession.answer]
  split
  · next hquestion =>
    refine ⟨[], asks_request hquestion rfl (fun _ => rfl) fun _ => silent_ret, ?_⟩
    intro exchanges answer session' hrun
    rcases runs_request_iff.mp hrun with ⟨-, ⟨⟩⟩ | ⟨_, tail, -, hret⟩
    have hpair := (runs_ret_iff.mp hret).2
    simp only [Outcome.returned.injEq, Prod.mk.injEq, reduceCtorEq, or_false] at hpair
    exact hpair.2
  · next label choices description typedPrompt hquestion =>
    rw [SetupSession.chooseOne]
    split
    · exact ⟨[], (asks_enterText hquestion (by rfl)).map, fun _ _ _ => kept⟩
    · next hne =>
      refine ⟨choices.available disks (inherited.lookup setting.path),
        asks_request hquestion rfl (fun _ => rfl) fun _ => silent_ret, ?_⟩
      intro exchanges answer session' hrun
      rcases runs_request_iff.mp hrun with ⟨-, ⟨⟩⟩ | ⟨_, tail, -, hret⟩
      have hpair := (runs_ret_iff.mp hret).2
      simp only [Outcome.returned.injEq, Prod.mk.injEq, reduceCtorEq, or_false] at hpair
      rw [SetupSession.offering, if_neg hne]
      exact hpair.2
  · next hquestion => exact ⟨[], (asks_chooseMany hquestion).map, fun _ _ _ => kept⟩
  · next hquestion => exact ⟨[], (asks_enterText hquestion (by rfl)).map, fun _ _ _ => kept⟩
  · next hquestion => exact ⟨[], (asks_secret hquestion _).map, fun _ _ _ => kept⟩
  · refine ⟨[], ?_, ?_⟩
    · intro exchanges outcome hrun
      obtain ⟨rfl, rfl | rfl⟩ := runs_raise_iff.mp hrun <;> exact .inr ⟨rfl, by simp⟩
    · intro exchanges answer session' hrun
      exact absurd (runs_raise_iff.mp hrun).2 (by simp)

/-! ## The walk over the settings -/

/-- The choices that were offered for a setting, of which there is one on record if there were any. -/
def SetupSession.offeredFor (session : SetupSession) (settingPath : String) : List Choice :=
  (session.offeredChoices.lookup settingPath).getD []

@[simp] theorem offering_answers {session : SetupSession} {settingPath : String} {offered : List Choice} :
    (session.offering settingPath offered).answers = session.answers := by
  rw [SetupSession.offering]
  split <;> rfl

@[simp] theorem offering_asked {session : SetupSession} {settingPath : String} {offered : List Choice} :
    (session.offering settingPath offered).asked = session.asked := by
  rw [SetupSession.offering]
  split <;> rfl

theorem offeredFor_offering_self {session : SetupSession} {settingPath : String}
    {offered : List Choice} (h : session.offeredFor settingPath = []) :
    (session.offering settingPath offered).offeredFor settingPath = offered := by
  rw [SetupSession.offering]
  split
  · next hempty => rw [h, List.isEmpty_iff.mp hempty]
  · rw [SetupSession.offeredFor, lookup_assign_self, Option.getD_some]

theorem offeredFor_offering_of_ne {session : SetupSession} {settingPath path : String}
    {offered : List Choice} (hne : path ≠ settingPath) :
    (session.offering settingPath offered).offeredFor path = session.offeredFor path := by
  rw [SetupSession.offering]
  split
  · rfl
  · rw [SetupSession.offeredFor, SetupSession.offeredFor, lookup_assign_of_ne hne]

/-- What a session knows when these settings have been visited. -/
structure Visited (inherited : List (String × SettingValue)) (done : List (String × StepSetting))
    (exchanges : List (Ask × PyValue)) (session : SetupSession) : Prop where
  asked : session.asked = done.filter (isAsked (session.value inherited))
  answered : session.answers.map Prod.fst = session.asked.map fun entry => entry.2.path
  unoffered : ∀ path ∉ session.asked.map (fun entry => entry.2.path), session.offeredFor path = []
  parts : ∃ parts, List.Forall₂ (fun entry part => AskedIn entry part ∧
    session.offeredFor entry.2.path = offeredIn part) session.asked parts ∧ exchanges = parts.flatten

theorem visited_nil : Visited inherited [] [] {} where
  asked := rfl
  answered := rfl
  unoffered := fun _ _ => rfl
  parts := ⟨[], .nil, rfl⟩

theorem Visited.asked_subset {done : List (String × StepSetting)} {session : SetupSession}
    (h : Visited inherited done exchanges session) {path : String}
    (hpath : path ∈ session.asked.map fun entry => entry.2.path) :
    path ∈ done.map fun entry => entry.2.path := by
  obtain ⟨entry, hentry, rfl⟩ := List.mem_map.mp hpath
  rw [h.asked] at hentry
  exact List.mem_map_of_mem (List.mem_of_mem_filter hentry)

/-- An answer for a setting that has none comes last. -/
theorem keys_assign_of_not_mem {α : Type} {name : String} {value : α} {entries : List (String × α)}
    (h : name ∉ entries.map Prod.fst) :
    (assign name value entries).map Prod.fst = entries.map Prod.fst ++ [name] := by
  rw [keys_assign, if_neg h]

theorem value_ask_of_ne {session session' : SetupSession} {settingPath path : String}
    {answer : PyValue} (hanswers : session'.answers = assign settingPath answer session.answers)
    (hne : path ≠ settingPath) : session'.value inherited path = session.value inherited path := by
  rw [SetupSession.value, SetupSession.value, hanswers, lookup_assign_of_ne hne]

/-- What the session leaves when a setting has been asked. -/
theorem ask_returned {session session' : SetupSession} {entry : String × StepSetting}
    (hrun : Runs (session.ask python inherited disks entry.1 entry.2) exchanges (.returned session')) :
    AskedIn entry exchanges ∧ ∃ answer,
      session'.answers = assign entry.2.path answer session.answers ∧
      session'.asked = session.asked ++ [entry] ∧
      ∀ path, session'.offeredFor path =
        (session.offering entry.2.path (offeredIn exchanges)).offeredFor path := by
  obtain ⟨first, ⟨answer, mid⟩, second, rfl, hfirst, hsecond⟩ := runs_bind_returned_iff.mp hrun
  obtain ⟨rfl, hret⟩ := runs_pure_iff.mp hsecond
  rw [List.append_nil]
  obtain ⟨offered, hasks, hspec⟩ := answer_spec python inherited disks session entry.1 entry.2
  obtain rfl := hspec _ _ _ hfirst
  rcases hasks _ _ hfirst with ⟨hasked, rfl⟩ | ⟨-, hnot⟩
  · refine ⟨hasked, answer, ?_⟩
    simp only [Outcome.returned.injEq, reduceCtorEq, or_false] at hret
    subst hret
    refine ⟨by simp, by simp, fun path => rfl⟩
  · exact absurd rfl (hnot _)

/-- One more setting: it is asked if its condition holds, and then the session knows its answer. -/
theorem Visited.visit {done left : List (String × StepSetting)} {entry : String × StepSetting}
    {session session' : SetupSession} (hsplit : setupSettings = done ++ entry :: left)
    (h : Visited inherited done exchanges session) {exchanges' : List (Ask × PyValue)}
    (hrun : Runs (session.visit python inherited disks entry) exchanges' (.returned session')) :
    Visited inherited (done ++ [entry]) (exchanges ++ exchanges') session' := by
  rw [SetupSession.visit] at hrun
  by_cases hentry : isAsked (session.value inherited) entry
  · rw [if_pos (by simpa [isAsked] using hentry)] at hrun
    obtain ⟨hasked, answer, hanswers, hasked', hoffered⟩ := ask_returned hrun
    have hfresh : entry.2.path ∉ done.map fun entry => entry.2.path := by
      have hnodup := nodup_setupSettings
      rw [hsplit, List.map_append, List.map_cons] at hnodup
      intro hmem
      exact (List.nodup_append.mp hnodup).2.2 _ hmem _ List.mem_cons_self rfl
    have hunasked : entry.2.path ∉ session.asked.map fun entry => entry.2.path :=
      fun hmem => hfresh (h.asked_subset hmem)
    have hvalue : ∀ path ∈ done.map (fun entry => entry.2.path), path ∈ conditionPaths →
        Alike (session'.value inherited path) (session.value inherited path) := by
      intro path hpath _
      refine Alike.of_eq (value_ask_of_ne hanswers ?_)
      rintro rfl
      exact hfresh hpath
    refine ⟨?_, ?_, ?_, ?_⟩
    · rw [List.filter_append, filter_isAsked_eq hsplit hvalue, ← h.asked, hasked',
        List.filter_cons_of_pos (by rwa [isAsked_eq hsplit hvalue]), List.filter_nil]
    · rw [hanswers, keys_assign_of_not_mem (by rwa [h.answered]), h.answered, hasked',
        List.map_append]
      rfl
    · intro path hpath
      rw [hasked', List.map_append, List.mem_append, not_or, List.map_singleton,
        List.mem_singleton] at hpath
      rw [hoffered, offeredFor_offering_of_ne hpath.2, h.unoffered path hpath.1]
    · obtain ⟨parts, hparts, rfl⟩ := h.parts
      refine ⟨parts ++ [exchanges'], ?_, by simp⟩
      rw [hasked']
      refine List.rel_append ?_ (.cons ⟨hasked, ?_⟩ .nil)
      · refine List.forall₂_iff_zip.mpr ⟨hparts.length_eq, fun {entry' part} hmem => ?_⟩
        obtain ⟨hpart, hoffered'⟩ := List.forall₂_zip hparts hmem
        refine ⟨hpart, ?_⟩
        rw [hoffered, offeredFor_offering_of_ne, hoffered']
        intro heq
        exact hunasked (heq ▸ List.mem_map_of_mem (List.of_mem_zip hmem).1)
      · rw [hoffered, offeredFor_offering_self (h.unoffered _ hunasked)]
  · rw [if_neg (by simpa [isAsked] using hentry)] at hrun
    obtain ⟨rfl, hret⟩ := runs_pure_iff.mp hrun
    obtain rfl : session' = session := by simpa using hret
    refine ⟨?_, h.answered, h.unoffered, by simpa using h.parts⟩
    rw [List.filter_append, ← h.asked, List.filter_cons_of_neg hentry]
    simp

theorem visit_asks {session : SetupSession} {entry : String × StepSetting}
    {outcome : Outcome SetupError SetupSession}
    (hrun : Runs (session.visit python inherited disks entry) exchanges outcome) :
    AskedIn entry exchanges ∨ exchanges = [] := by
  rw [SetupSession.visit] at hrun
  split at hrun
  · obtain ⟨offered, hasks, -⟩ := answer_spec python inherited disks session entry.1 entry.2
    have hanswer : ∀ {outcome},
        Runs (session.answer python inherited disks entry.1 entry.2) exchanges outcome →
          AskedIn entry exchanges ∨ exchanges = [] :=
      fun h => (hasks _ _ h).imp (fun h => h.1) (fun h => h.1)
    rw [SetupSession.ask] at hrun
    rcases runs_bind_iff.mp hrun with
      ⟨first, value, second, rfl, hfirst, hsecond⟩ | ⟨error, hraised, -⟩ | ⟨hstopped, -⟩
    · obtain ⟨rfl, -⟩ := runs_pure_iff.mp hsecond
      rw [List.append_nil] at hanswer ⊢
      exact hanswer hfirst
    · exact hanswer hraised
    · exact hanswer hstopped
  · exact .inr (runs_pure_iff.mp hrun).1

theorem Visited.sublist {done left : List (String × StepSetting)} {session : SetupSession}
    (hsplit : setupSettings = done ++ left) (h : Visited inherited done exchanges session) :
    session.asked.Sublist done ∧ done.Sublist setupSettings := by
  rw [h.asked, hsplit]
  exact ⟨List.filter_sublist, List.sublist_append_left _ _⟩

theorem Visited.exists_parts {done : List (String × StepSetting)} {session : SetupSession}
    (h : Visited inherited done exchanges session) :
    ∃ parts, List.Forall₂ AskedIn session.asked parts ∧ exchanges = parts.flatten := by
  obtain ⟨parts, hparts, hexchanges⟩ := h.parts
  exact ⟨parts, hparts.imp fun _ _ h => h.1, hexchanges⟩

/-- The walk asks settings of the steps one after another, however it ends. -/
theorem walk_asks {outcome : Outcome SetupError SetupSession}
    (hrun : Runs (setupSettings.foldlM (SetupSession.visit python inherited disks) {}) exchanges
      outcome) :
    (∃ asked parts, asked.Sublist setupSettings ∧ List.Forall₂ AskedIn asked parts ∧
      exchanges = parts.flatten) ∧
    ∀ session, outcome = .returned session → Visited inherited setupSettings exchanges session := by
  rcases runs_foldlM visited_nil (fun done entry left exchanges session hsplit hvisited
    exchanges' session' hbody => hvisited.visit hsplit hbody) hrun with
    ⟨session, hvisited, houtcome⟩ | ⟨done, entry, left, session, first, second, outcome', hsplit, rfl,
      hvisited, hbody, hnot⟩
  · obtain ⟨parts, hparts, hexchanges⟩ := hvisited.exists_parts
    refine ⟨⟨_, parts, (hvisited.sublist (List.append_nil _).symm).1, hparts, hexchanges⟩, ?_⟩
    rintro session' rfl
    obtain rfl : session' = session := by simpa using houtcome
    exact hvisited
  · refine ⟨?_, fun session' houtcome => absurd houtcome (hnot session')⟩
    obtain ⟨parts, hparts, rfl⟩ := hvisited.exists_parts
    obtain ⟨hsub, hsub'⟩ := hvisited.sublist hsplit
    rcases visit_asks hbody with hasked | rfl
    · refine ⟨session.asked ++ [entry], parts ++ [second], ?_, List.rel_append hparts (.cons hasked .nil),
        by simp⟩
      rw [hsplit]
      exact hsub.append (List.singleton_sublist.mpr List.mem_cons_self)
    · exact ⟨_, parts, hsub.trans hsub', hparts, by simp⟩

/-- A run of the setup: the walk, the last screen, and what it confirms. -/
theorem runs_runSetup {outcome : Outcome SetupError (List (String × PyValue))}
    (hrun : Runs (runSetup python inherited disks) exchanges outcome) :
    ∃ walked last outcome', exchanges = walked ++ last ∧
      Runs (setupSettings.foldlM (SetupSession.visit python inherited disks) {}) walked outcome' ∧
      (last = [] ∨ ∃ rows confirmed, last = [(.review rows, confirmed)]) ∧
      ∀ answers, outcome = .returned answers → ∃ session rows confirmed,
        outcome' = .returned session ∧ session.summary python inherited = .ok rows ∧
        last = [(.review rows, confirmed)] ∧ answers = session.answers := by
  rw [runSetup] at hrun
  rcases runs_bind_iff.mp hrun with
    ⟨walked, session, last, rfl, hwalk, hrest⟩ | ⟨error, hraised, rfl⟩ | ⟨hstopped, rfl⟩
  · refine ⟨walked, last, _, rfl, hwalk, ?_⟩
    rcases runs_ofExcept_bind hrest with ⟨rows, hrows, hreview⟩ | ⟨rfl, hnot⟩
    · rw [Program.request_bind] at hreview
      rcases runs_request_iff.mp hreview with ⟨rfl, rfl⟩ | ⟨confirmed, tail, rfl, hend⟩
      · exact ⟨.inl rfl, by simp⟩
      · rw [Program.ret_bind] at hend
        split at hend
        · obtain ⟨rfl, hret⟩ := runs_pure_iff.mp hend
          refine ⟨.inr ⟨rows, confirmed, rfl⟩, fun answers hanswers => ?_⟩
          subst hanswers
          exact ⟨session, rows, confirmed, rfl, hrows, rfl, by simpa using hret⟩
        · obtain ⟨rfl, hraise⟩ := runs_raise_iff.mp hend
          refine ⟨.inr ⟨rows, confirmed, rfl⟩, fun answers hanswers => ?_⟩
          subst hanswers
          exact absurd hraise (by simp)
    · exact ⟨.inl rfl, fun answers hanswers => absurd hanswers (hnot answers)⟩
  · exact ⟨exchanges, [], _, by simp, hraised, .inl rfl, by simp⟩
  · exact ⟨exchanges, [], _, by simp, hstopped, .inl rfl, by simp⟩

/-! ## The summary -/

/-- Each element of a list is mapped, in order. -/
theorem forall₂_of_mapM {α β ε : Type} {f : α → Except ε β} {xs : List α} {ys : List β}
    (h : xs.mapM f = .ok ys) : List.Forall₂ (fun x y => f x = .ok y) xs ys := by
  induction xs generalizing ys with
  | nil =>
    cases h
    exact .nil
  | cons x xs ih =>
    rw [List.mapM_cons] at h
    cases hfirst : f x with
    | error error =>
      rw [hfirst] at h
      cases h
    | ok y =>
      rw [hfirst] at h
      cases hrest : xs.mapM f with
      | error error =>
        rw [hrest] at h
        cases h
      | ok rest =>
        rw [hrest] at h
        cases h
        exact .cons hfirst (ih hrest)

theorem forall₂_zip_left {α β γ : Type} {Q : α → β → Prop} {R : α → γ → Prop} {T : α → β → γ → Prop}
    {xs : List α} {ys : List β} {zs : List γ} (h : List.Forall₂ Q xs ys) (h' : List.Forall₂ R xs zs)
    (hT : ∀ x y z, Q x y → R x z → T x y z) :
    List.Forall₂ (fun (x, y) z => T x y z) (xs.zip ys) zs := by
  induction h generalizing zs with
  | nil =>
    cases h'
    exact .nil
  | cons hfirst _ ih =>
    cases h' with
    | cons hfirst' hrest' => exact .cons (hT _ _ _ hfirst hfirst') (ih hrest')

theorem rows_of_summary {session : SetupSession} {rows : List SummaryRow}
    (hasked : ∀ entry ∈ session.asked, entry.2.question.isSome)
    (h : session.summary python inherited = .ok rows) :
    List.Forall₂ (fun entry row => ∃ question, entry.2.question = some question ∧
      summaryRow python session (applyTuiChoices inherited session.answers) entry.1 entry.2 question =
        .ok row) session.asked rows := by
  have hrows := forall₂_of_mapM h
  clear h
  generalize session.asked = asked at hasked hrows
  induction asked generalizing rows with
  | nil =>
    cases hrows
    exact .nil
  | cons entry asked ih =>
    obtain ⟨step, setting⟩ := entry
    rw [List.forall_mem_cons] at hasked
    obtain ⟨question, hquestion⟩ := Option.isSome_iff_exists.mp hasked.1
    simp only at hquestion
    simp only [List.filterMap_cons, hquestion, Option.map_some] at hrows
    cases hrows with
    | cons hrow hrest => exact .cons ⟨question, hquestion, hrow⟩ (ih hasked.2 hrest)

theorem isSummary_of_row {session : SetupSession} {final : List (String × SettingValue)}
    {question : Question} {part : List (Ask × PyValue)} {row : SummaryRow}
    (hquestion : entry.2.question = some question)
    (hoffered : session.offeredFor entry.2.path = offeredIn part)
    (h : summaryRow python session final entry.1 entry.2 question = .ok row) :
    IsSummary python final entry part row := by
  rw [summaryRow] at h
  split at h
  · cases h
  · next chosen hchosen =>
    change (do
      let value ← shownValue python (session.offeredFor entry.2.path) question chosen.value
      return _) = _ at h
    cases hvalue : shownValue python (session.offeredFor entry.2.path) question chosen.value with
    | error error =>
      rw [hvalue] at h
      cases h
    | ok value =>
      rw [hvalue] at h
      cases h
      exact ⟨rfl, question, chosen, hquestion, hchosen, rfl, rfl, by rw [← hoffered, hvalue]⟩

/-! ## The configuration -/

theorem chosenValue_like (previous : Option SettingValue) (choice : PyValue) :
    choice = (chosenValue previous choice).value ∨ (chosenValue previous choice).value.eq choice := by
  cases previous with
  | none => exact .inl rfl
  | some previous =>
    by_cases heq : previous.value.eq choice
    · exact .inr (by simp [chosenValue, heq])
    · exact .inl (by simp [chosenValue, heq])

/-- No condition reads a credential. -/
theorem lookup_credentials_conditionPaths : ∀ path ∈ conditionPaths,
    ((credentialPaths.map ((·, PyValue.str ""))).lookup path).isNone := by
  decide +kernel

/-- What a condition reads of the session is like what it reads of the configuration. -/
theorem alike_configLookup {session : SetupSession} {config : InstallerConfig}
    (hknown : KnownPaths InstallerConfig.fields (plainValues inherited))
    (hnodup : (session.answers.map Prod.fst).Nodup)
    (hanswers : ∀ path ∈ session.answers.map Prod.fst,
      ∃ type, ∃ setting : Setting InstallerConfig.fields type, path = setting.path)
    (hbuild : buildInstallerConfig (plainValues (applyTuiChoices inherited session.answers)) =
      .ok config) {path : String} (hpath : path ∈ conditionPaths) :
    Alike (configLookup config path) (session.value inherited path) := by
  obtain ⟨type, htype, setting, rfl⟩ :=
    setting_of_isSettingPath (isSettingPath_conditionPaths path hpath)
  have hfinal := hknown.applyTuiChoices hnodup hanswers
  obtain ⟨value, hlookup, hreads⟩ := hfinal.reads hbuild setting
  rw [configLookup_path]
  refine alike_data htype hreads ?_
  have hcredential := Option.isNone_iff_eq_none.mp (lookup_credentials_conditionPaths _ hpath)
  rw [withCredentials, lookup_merge hfinal.nodup, hcredential, Option.or_none, lookup_plainValues,
    applyTuiChoices_eq, lookup_foldl_applyChoice hnodup _ rfl] at hlookup
  rw [SetupSession.value]
  cases hanswer : session.answers.lookup setting.path with
  | none =>
    rw [hanswer] at hlookup
    obtain ⟨previous, hprevious, rfl⟩ := Option.map_eq_some_iff.mp hlookup
    simp only at hprevious
    simp [hprevious]
  | some answer =>
    rw [hanswer] at hlookup
    simp only [Option.map_some, Option.some.injEq] at hlookup
    subst hlookup
    exact chosenValue_like _ answer

end

/-! ## A session that keeps what it inherits -/

/-- `str`, where no containers and no floats are shown. -/
def scalarBuiltins : PyBuiltins where
  str
    | .none => some "None"
    | .bool value => some (if value then "True" else "False")
    | .int value => some (toString value)
    | value => value.text
  str_text {value text} h := by cases value <;> first | exact h | cases h
  otherItems := fun _ => none

def inheritedSample : List (String × SettingValue) :=
  sampleFile.map fun (path, value) => (path, { value, source := .configFile })

theorem plainValues_inheritedSample : plainValues inheritedSample = sampleFile := by
  rw [plainValues, inheritedSample, List.map_map]
  exact List.map_id _

/-- Every screen is confirmed as it is shown. -/
def keepInherited : Ask → PyValue
  | .switch _ _ inherited => .bool (inherited.any Inherited.value)
  | .chooseOne _ _ _ inherited => (inherited.map Inherited.value).getD .none
  | .chooseMany _ _ inherited => .list ((inherited.map Inherited.value).getD [])
  | .enterText _ _ inherited => .str ((inherited.map Inherited.value).getD "")
  | .keepSecret _ _ _ | .review _ => .bool true
  | .enterSecret _ _ => .str "secret"

def keepingSession : Simulation Ask PyValue SetupError (List (String × PyValue)) Unit :=
  simulate (fun s ask => (keepInherited ask, s)) (runSetup scalarBuiltins inheritedSample []) 40 ()

/-- Choices that equal what is inherited change nothing. -/
theorem applyTuiChoices_eq_inherited {inherited : List (String × SettingValue)}
    {choices : List (String × PyValue)}
    (h : ∀ choice ∈ choices, (inherited.lookup choice.1).any (·.value.eq choice.2)) :
    applyTuiChoices inherited choices = inherited := by
  rw [applyTuiChoices_eq]
  suffices hfold : ∀ chosen, choices.foldl (applyChoice inherited) chosen = chosen from hfold _
  intro chosen
  induction choices with
  | nil => rfl
  | cons choice choices ih =>
    rw [List.forall_mem_cons, Option.any_eq_true] at h
    obtain ⟨⟨previous, hprevious, heq⟩, hrest⟩ := h
    rw [List.foldl_cons, applyChoice, hprevious]
    simp only [heq, if_true]
    exact ih hrest

theorem keepingSession_keeps : ∃ answers, keepingSession.outcome = .returned answers ∧
    ∀ answer ∈ answers, (inheritedSample.lookup answer.1).any (·.value.eq answer.2) := by
  have hkeeps : (match keepingSession.outcome with
      | .returned answers =>
        answers.all fun answer => (inheritedSample.lookup answer.1).any (·.value.eq answer.2)
      | _ => false) = true := by decide +kernel
  split at hkeeps
  · next answers houtcome => exact ⟨answers, houtcome, List.all_eq_true.mp hkeeps⟩
  · cases hkeeps

end ArchInstaller
