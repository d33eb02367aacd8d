import ArchInstaller.Setup.Assembly
import ArchInstaller.Verify.SetupRuns

/-! # What the setup is shown

The setup chooses values for settings that have questions, and what it does depends on the inherited
values of these settings only. -/

namespace ArchInstaller

open Interaction PyData PyText

/-- What is relied on of the interactive step: it chooses values for the settings that have
questions, and is not shown others. -/
structure TuiSetup.AsksSettings (tui : TuiSetup) : Prop where
  settings : ∀ {inherited choices}, tui inherited = .ok choices →
    BySetting InstallerConfig.fields choices
  shown : ∀ {inherited inherited'}, (∀ entry ∈ setupSettings,
    inherited.lookup entry.2.path = inherited'.lookup entry.2.path) → tui inherited = tui inherited'

section

variable {python : PyBuiltins} {disks : List Disk} {inherited inherited' : List (String × SettingValue)}

/-- The settings with questions have the same inherited values. -/
def ShowsSame (inherited inherited' : List (String × SettingValue)) : Prop :=
  ∀ entry ∈ setupSettings, inherited.lookup entry.2.path = inherited'.lookup entry.2.path

theorem answer_congr {session : SetupSession} {step : String} {setting : StepSetting}
    (h : inherited.lookup setting.path = inherited'.lookup setting.path) :
    session.answer python inherited disks step setting =
      session.answer python inherited' disks step setting := by
  simp only [SetupSession.answer, h]

theorem conditionPaths_mem : ∀ path ∈ conditionPaths,
    ∃ entry ∈ setupSettings, entry.2.path = path := by
  decide

theorem value_congr (h : ShowsSame inherited inherited') (session : SetupSession) {path : String}
    (hpath : path ∈ conditionPaths) : session.value inherited path = session.value inherited' path := by
  obtain ⟨entry, hentry, rfl⟩ := conditionPaths_mem path hpath
  rw [SetupSession.value, SetupSession.value, h entry hentry]

theorem visit_congr (h : ShowsSame inherited inherited') (session : SetupSession)
    {done left : List (String × StepSetting)} {entry : String × StepSetting}
    (hsplit : setupSettings = done ++ entry :: left) :
    session.visit python inherited disks entry = session.visit python inherited' disks entry := by
  have hasked : isAsked (session.value inherited) entry = isAsked (session.value inherited') entry :=
    isAsked_eq hsplit fun path _ hpath => Alike.of_eq (value_congr h session hpath)
  rw [isAsked, isAsked] at hasked
  rw [SetupSession.visit, SetupSession.visit, hasked, SetupSession.ask, SetupSession.ask,
    answer_congr (h entry (by rw [hsplit]; simp))]

theorem lookup_applyTuiChoices_congr {path : String}
    (h : inherited.lookup path = inherited'.lookup path) (choices : List (String × PyValue)) :
    (applyTuiChoices inherited choices).lookup path =
      (applyTuiChoices inherited' choices).lookup path := by
  suffices hchosen : ∀ chosen chosen' : List (String × SettingValue),
      chosen.lookup path = chosen'.lookup path →
        (choices.foldl (applyChoice inherited) chosen).lookup path =
          (choices.foldl (applyChoice inherited') chosen').lookup path from hchosen _ _ h
  induction choices with
  | nil => exact fun _ _ => id
  | cons choice choices ih =>
    intro chosen chosen' hchosen
    rw [List.foldl_cons, List.foldl_cons]
    refine ih _ _ ?_
    by_cases hpath : path = choice.1
    · rw [applyChoice, applyChoice, ← hpath, ← h]
      cases inherited.lookup path with
      | none => rw [lookup_assign_self, lookup_assign_self]
      | some previous =>
        dsimp only
        split
        · exact hchosen
        · rw [lookup_assign_self, lookup_assign_self]
    · rw [lookup_applyChoice_of_ne hpath, lookup_applyChoice_of_ne hpath, hchosen]

theorem summary_congr (h : ShowsSame inherited inherited') {session : SetupSession}
    (hasked : ∀ entry ∈ session.asked, entry ∈ setupSettings) :
    session.summary python inherited = session.summary python inherited' := by
  have rows_congr : ∀ {rows : List (String × StepSetting × Question)},
      (∀ row ∈ rows, ∃ entry ∈ setupSettings, row.2.1 = entry.2) →
        (rows.mapM fun row => summaryRow python session (applyTuiChoices inherited session.answers)
          row.1 row.2.1 row.2.2) =
        rows.mapM fun row => summaryRow python session (applyTuiChoices inherited' session.answers)
          row.1 row.2.1 row.2.2 := by
    intro rows hrows
    induction rows with
    | nil => rfl
    | cons row rows ih =>
      obtain ⟨step, setting, question⟩ := row
      rw [List.forall_mem_cons] at hrows
      obtain ⟨⟨entry, hentry, hsetting⟩, hrest⟩ := hrows
      have hlookup := lookup_applyTuiChoices_congr (h entry hentry) session.answers
      rw [← show setting = entry.2 from hsetting] at hlookup
      rw [List.mapM_cons, List.mapM_cons, ih hrest]
      simp only [summaryRow, hlookup]
  rw [SetupSession.summary, SetupSession.summary]
  refine rows_congr fun row hrow => ?_
  obtain ⟨⟨step, setting⟩, hentry, hmap⟩ := List.mem_filterMap.mp hrow
  obtain ⟨question, -, rfl⟩ := Option.map_eq_some_iff.mp hmap
  exact ⟨_, hasked _ hentry, rfl⟩

/-- Only settings of the setup are asked. -/
theorem asked_visit {session session' : SetupSession} {entry : String × StepSetting}
    (hentry : entry ∈ setupSettings) (hasked : ∀ entry ∈ session.asked, entry ∈ setupSettings)
    {exchanges : List (Ask × PyValue)}
    (hrun : Runs (session.visit python inherited disks entry) exchanges (.returned session')) :
    ∀ entry ∈ session'.asked, entry ∈ setupSettings := by
  rw [SetupSession.visit] at hrun
  split at hrun
  · obtain ⟨-, answer, -, hasked', -⟩ := ask_returned hrun
    rw [hasked']
    intro entry' hmem
    rcases List.mem_append.mp hmem with hmem | hmem
    · exact hasked entry' hmem
    · rwa [List.mem_singleton.mp hmem]
  · obtain rfl : session' = session := by simpa using (runs_pure_iff.mp hrun).2
    exact hasked

/-- **The setup depends on what it shows only.** -/
theorem runSetup_congr (h : ShowsSame inherited inherited') :
    runSetup python inherited disks = runSetup python inherited' disks := by
  have hwalk : setupSettings.foldlM (SetupSession.visit python inherited disks) {} =
        setupSettings.foldlM (SetupSession.visit python inherited' disks) {} ∧
      ∀ exchanges session, Runs (setupSettings.foldlM (SetupSession.visit python inherited disks) {})
        exchanges (.returned session) → ∀ entry ∈ session.asked, entry ∈ setupSettings :=
    foldlM_congr_of_runs nofun fun done entry left session hsplit hasked =>
      ⟨visit_congr h session hsplit, fun exchanges session' hrun =>
        asked_visit (by rw [hsplit]; simp) hasked hrun⟩
  rw [runSetup, runSetup, ← hwalk.1]
  refine bind_congr_of_runs fun exchanges session hrun => ?_
  rw [summary_congr h (hwalk.2 exchanges session hrun)]

/-- **The setup asks its settings.** -/
theorem runTuiSetup_asksSettings (python : PyBuiltins) (disks : List Disk)
    (answer : List (Ask × PyValue) → Ask → Except SetupError PyValue) :
    (runTuiSetup python disks answer).AsksSettings where
  settings := by
    intro inherited choices hchoices
    obtain ⟨exchanges, hrun⟩ := runs_of_answered hchoices
    obtain ⟨walked, last, outcome, -, hwalk, -, hreturned⟩ := runs_runSetup hrun
    obtain ⟨session, rows, confirmed, rfl, -, -, rfl⟩ := hreturned choices rfl
    have hvisited := (walk_asks hwalk).2 session rfl
    refine ⟨fun entry hentry => ?_, ?_⟩
    · have hkey := List.mem_map_of_mem (f := Prod.fst) hentry
      rw [hvisited.answered] at hkey
      obtain ⟨entry', hentry', hpath⟩ := List.mem_map.mp (hvisited.asked_subset hkey)
      obtain ⟨type, -, setting, hsetting⟩ := setting_of_isSettingPath
        (isSettingPath_setupSettings entry' hentry')
      exact ⟨type, setting, hpath.symm.trans hsetting⟩
    · rw [hvisited.answered, hvisited.asked]
      exact nodup_setupSettings.sublist (List.filter_sublist.map _)
  shown := by
    intro inherited inherited' h
    rw [runTuiSetup, runTuiSetup, runSetup_congr h]

end

end ArchInstaller
