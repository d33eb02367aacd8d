import ArchInstaller.Core.Runs
import ArchInstaller.Installer
import ArchInstaller.Interaction.Observation

/-! # The credentials stay on stdin

Two installations whose configurations differ in the credentials only take the same course, but
for the input of the commands that a password is typed into. -/

namespace ArchInstaller

open Interaction PyText Script

/-- The commands that read a password from stdin. -/
def Command.readsPassword : Command → Bool
  | cryptsetupTestPassphrase .. | cryptsetupLuksFormat .. | cryptsetupOpen .. => true
  | chroot .chpasswd => true
  | _ => false

/-- What shows of a call: all but a password typed into it. -/
def Invocation.withoutPassword (invocation : Invocation) : Invocation :=
  { invocation with
    inputData := if invocation.command.readsPassword then none else invocation.inputData }

/-- Scripts that differ in the passwords only. -/
abbrev AlikeBut {α : Type} (p q : Script α) : Prop := Alike Invocation.withoutPassword p q

variable {config : InstallerConfig} {credentials : Credentials}

theorem alike_invoke {invocation invocation' : Invocation}
    (h : invocation.withoutPassword = invocation'.withoutPassword) :
    AlikeBut (invoke invocation) (invoke invocation') := by
  have hcommand : invocation.command = invocation'.command := (congrArg Invocation.command h :)
  have hraise : invocation.raiseOnNonzeroExit = invocation'.raiseOnNonzeroExit :=
    (congrArg Invocation.raiseOnNonzeroExit h :)
  simp only [invoke, hcommand, hraise]
  exact .andThen fun _ => .bind (.request h fun _ => .ret) fun _ => .refl _

theorem alike_runWithInput {command : Command} {password password' : String}
    (h : command.readsPassword) :
    AlikeBut (runWithInput command password) (runWithInput command password') :=
  alike_invoke (by simp [Invocation.withoutPassword, h])

theorem alike_tryRunWithInput {command : Command} {password password' : String}
    (h : command.readsPassword) :
    AlikeBut (tryRunWithInput command password) (tryRunWithInput command password') :=
  alike_invoke (by simp [Invocation.withoutPassword, h])

namespace StorageStepExecutor

theorem alike_luksIsUsable :
    AlikeBut (luksIsUsable { config with credentials }) (luksIsUsable config) := by
  refine .andThen fun holdsHeader => .ite ?_ (.refl _)
  exact (alike_tryRunWithInput rfl).bind fun _ => .refl _

theorem alike_prepareDisk :
    AlikeBut (prepareDisk { config with credentials }) (prepareDisk config) := by
  refine .ite (.refl _) (.ite (.refl _) ?_)
  refine .andThen fun exist => .ite ?_ (.refl _)
  exact alike_luksIsUsable.bind fun _ => .refl _

theorem alike_setupLuks :
    AlikeBut (setupLuks { config with credentials }) (setupLuks config) := by
  have hformat : AlikeBut (formatLuks { config with credentials }) (formatLuks config) :=
    (alike_runWithInput rfl).bind fun _ => .refl _
  have hopen : AlikeBut (openLuks { config with credentials }) (openLuks config) :=
    (alike_runWithInput rfl).bind fun _ => .refl _
  refine .andThen fun status => .ite (.refl _) ?_
  exact .andThen fun isLuks => .bind (.onlyIf (.andThen fun _ => hformat)) fun _ => hopen

theorem alike_execute : AlikeBut (execute { config with credentials }) (execute config) := by
  refine .andThen fun mounted => .ite (.refl _) ?_
  refine .andThen fun _ => .andThen fun _ => alike_prepareDisk.bind fun _ => ?_
  exact alike_setupLuks.bind fun _ => .refl _

end StorageStepExecutor

namespace MigrationStagingStepExecutor

theorem alike_execute : AlikeBut (execute { config with credentials }) (execute config) := by
  have hopen : ∀ partition, AlikeBut (openAndMount { config with credentials } partition)
      (openAndMount config partition) := fun partition =>
    (alike_tryRunWithInput rfl).bind fun unlocked => .refl _
  exact .andThen fun partition => (hopen partition).bind fun _ => .refl _

end MigrationStagingStepExecutor

namespace SystemStepExecutor

theorem alike_createUser :
    AlikeBut (createUser { config with credentials }) (createUser config) := by
  have hpassword : AlikeBut (setUserPassword { config with credentials })
      (setUserPassword config) := (alike_runWithInput rfl).bind fun _ => .refl _
  exact .andThen fun found => .ite (.andThen fun _ => hpassword) (.andThen fun _ => hpassword)

theorem alike_execute : AlikeBut (execute { config with credentials }) (execute config) := by
  iterate 10 refine .andThen fun _ => ?_
  exact alike_createUser

end SystemStepExecutor

/-- Every step. -/
theorem alike_step (step : InstallStep) :
    AlikeBut (step.execute { config with credentials }) (step.execute config) := by
  cases step with
  | migrationStaging =>
    rw [InstallStep.execute, InstallStep.execute]
    exact MigrationStagingStepExecutor.alike_execute
  | storage =>
    rw [InstallStep.execute, InstallStep.execute]
    exact StorageStepExecutor.alike_execute
  | system =>
    rw [InstallStep.execute, InstallStep.execute]
    exact SystemStepExecutor.alike_execute
  | _ => exact .refl _

namespace Installer

variable {safeDump : PlainValue → String}

theorem alike_runSteps {steps : List InstallStep} {count index : Nat} :
    AlikeBut (runSteps { config with credentials } count index steps)
      (runSteps config count index steps) := by
  induction steps generalizing index with
  | nil => exact .refl _
  | cons step steps ih =>
    exact .andThen fun _ => (alike_step step).bind fun _ => ih

theorem alike_install :
    AlikeBut (install safeDump { config with credentials }) (install safeDump config) :=
  .andThen fun _ => .andThen fun _ => alike_runSteps.bind fun _ => .refl _

/-- Whatever the commands answer, as long as no answer depends on a password, two installations
that differ in the credentials log the same messages, issue the same command lines and write the
same files, in the same order, and end the same way. -/
theorem install_hides_credentials (safeDump : PlainValue → String) (config : InstallerConfig)
    (credentials : Credentials)
    (oracle : List (Event Invocation LogRecord) → CommandExecutionResult) :
    observe Invocation.withoutPassword oracle (install safeDump { config with credentials }) [] =
      observe Invocation.withoutPassword oracle (install safeDump config) [] :=
  alike_install.observe_eq oracle []

end Installer

end ArchInstaller
