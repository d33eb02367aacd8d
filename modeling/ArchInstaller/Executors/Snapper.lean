import ArchInstaller.Executors.UsbBoot

/-! # Snapshots

`executors/snapper.py`: snapper configuration, bootable snapshot UKIs and snapshot
notifications. -/

namespace ArchInstaller

open Interaction.Program (forEach onlyIf)
open PyText Script

def snapshotManagerSettingsPath : String := "/etc/default/manage-snapshot-ukis"

def snapshotRefreshHookScript : String := "/usr/local/bin/refresh-snapshot-ukis"

def snapshotMicrocodePackages : List String := ["amd-ucode", "intel-ucode"]

def yesNo (enabled : Bool) : String := if enabled then "yes" else "no"

def snapperVolumeConfig (volume : SnapperVolumeConfig) (allowGroups : List String) : String :=
  let retention := volume.retention
  let groups := join "," allowGroups
  unlines
    [s!"# snapper config for {volume.subvolume}",
      "# created by arch_installer (D-Bus not available in chroot)",
      "",
      s!"SUBVOLUME=\"{volume.subvolume}\"",
      "FSTYPE=\"btrfs\"",
      "ALLOW_USERS=\"\"",
      s!"ALLOW_GROUPS=\"{groups}\"",
      "SYNC_ACL=\"yes\"",
      "BACKGROUND_COMPARISON=\"yes\"",
      "",
      s!"NUMBER_CLEANUP=\"{yesNo volume.cleanup}\"",
      "NUMBER_MIN_AGE=\"1800\"",
      s!"NUMBER_LIMIT=\"{volume.numberLimit}\"",
      s!"NUMBER_LIMIT_IMPORTANT=\"{volume.numberLimitImportant}\"",
      "",
      s!"TIMELINE_CREATE=\"{yesNo volume.timeline}\"",
      s!"TIMELINE_CLEANUP=\"{yesNo volume.cleanup}\"",
      "TIMELINE_MIN_AGE=\"1800\"",
      s!"TIMELINE_LIMIT_HOURLY=\"{retention.hourly}\"",
      s!"TIMELINE_LIMIT_DAILY=\"{retention.daily}\"",
      s!"TIMELINE_LIMIT_WEEKLY=\"{retention.weekly}\"",
      s!"TIMELINE_LIMIT_MONTHLY=\"{retention.monthly}\"",
      s!"TIMELINE_LIMIT_YEARLY=\"{retention.yearly}\"",
      "",
      s!"EMPTY_PRE_POST_CLEANUP=\"{yesNo volume.cleanup}\"",
      "EMPTY_PRE_POST_MIN_AGE=\"1800\""]

def snapPacRootConfig : String := unlines ["[root]", "snapshot = yes", "cleanup = timeline"]

def snapshotManagerSettings (snapshotCount : Int) (preferredKernel : String) : String :=
  unlines
    ["# read by manage-snapshot-ukis, generated by arch_installer from config.yaml",
      s!"SNAPSHOT_COUNT={snapshotCount}", s!"PREFERRED_KERNEL={preferredKernel}"]

def snapshotBootEntriesService : String :=
  unlines
    ["[Unit]",
      "Description=Refresh systemd-boot entries for BTRFS snapshots",
      "After=snapper-cleanup.service snapper-timeline.service",
      "",
      "[Service]",
      "Type=oneshot",
      s!"ExecStart={snapshotManager} refresh-settled"]

/-- A path unit that starts a service when a snapshot comes or goes. -/
def snapshotsPathUnit (description unit : String) : String :=
  unlines
    ["[Unit]", s!"Description={description}", "", "[Path]", "PathChanged=/.snapshots",
      s!"Unit={unit}", "", "[Install]", "WantedBy=multi-user.target"]

def snapshotBootEntriesPath : String :=
  snapshotsPathUnit "Watch for snapper snapshot changes" "snapper-boot-entries.service"

def snapshotRefreshPacmanHook (kernelPackages : List String) : String :=
  unlines
    (["# refreshes bootable snapshot UKIs once a kernel or initramfs changed",
      "# runs after 90-mkinitcpio-install.hook, which rebuilds the system UKIs",
      "",
      "[Trigger]",
      "Type = Path",
      "Operation = Install",
      "Operation = Upgrade",
      "Target = usr/lib/modules/*/vmlinuz",
      "Target = usr/lib/initcpio/*",
      "",
      "[Trigger]",
      "Type = Package",
      "Operation = Install",
      "Operation = Upgrade"] ++
    (kernelPackages ++ snapshotMicrocodePackages).map (fun package => s!"Target = {package}") ++
    ["",
      "[Action]",
      "Description = Refreshing snapshot boot UKIs...",
      "When = PostTransaction",
      s!"Exec = {snapshotRefreshHookScript}",
      "NeedsTargets"])

def snapshotRefreshHookScriptContent : String :=
  unlines
    ["#!/usr/bin/env bash",
      "# called by the pacman hook after kernel updates; never fails the transaction",
      "set -uo pipefail",
      "",
      "LOG_FILE=\"/var/log/snapshot-uki-refresh.log\"",
      "",
      "log() \x7b",
      "    echo \"[$(date '+%Y-%m-%d %H:%M:%S')] $*\" | tee -a \"$LOG_FILE\"",
      "\x7d",
      "",
      s!"if [ ! -x \"{snapshotManager}\" ]; then",
      s!"    log \"Warning: {snapshotManager} not found, skipping refresh\"",
      "    exit 0",
      "fi",
      "",
      "if [ ! -d \"/.snapshots\" ] || [ -z \"$(ls -A /.snapshots 2>/dev/null)\" ]; then",
      "    log \"No snapshots found in /.snapshots, skipping UKI refresh\"",
      "    exit 0",
      "fi",
      "",
      "log \"Refreshing snapshot UKIs after kernel update...\"",
      s!"if \"{snapshotManager}\" refresh >> \"$LOG_FILE\" 2>&1; then",
      "    log \"Snapshot UKIs refreshed successfully\"",
      "else",
      "    log \"Warning: Failed to refresh some snapshot UKIs\"",
      "fi",
      "exit 0"]

def snapperNotifyService : String :=
  unlines
    ["[Unit]",
      "Description=Notify on snapper snapshot creation",
      "After=snapper-timeline.timer snap-pac.service",
      "",
      "[Service]",
      "Type=oneshot",
      "ExecStart=/usr/local/bin/snapper-notify"]

def snapperNotifyPath : String :=
  snapshotsPathUnit "Watch for new snapshots and notify" "snapper-notify.service"

def snapperNotifyScript : String :=
  unlines
    ["#!/bin/bash",
      "# Desktop notification for snapper snapshot creation",
      "# Requires: libnotify (notify-send)",
      "",
      "set -euo pipefail",
      "",
      "SNAPSHOT_DIR=\"/.snapshots\"",
      "LAST_NOTIFIED_FILE=\"/tmp/snapper-last-notified\"",
      "",
      "latest_snapshot=$(ls -1t \"$SNAPSHOT_DIR\" 2>/dev/null | head -n1)",
      "[[ -z \"$latest_snapshot\" ]] && exit 0",
      "",
      "# avoid duplicate notifications",
      "if [[ -f \"$LAST_NOTIFIED_FILE\" ]]; then",
      "    last_notified=$(cat \"$LAST_NOTIFIED_FILE\")",
      "    [[ \"$latest_snapshot\" == \"$last_notified\" ]] && exit 0",
      "fi",
      "",
      "# get snapshot info",
      "info_file=\"$SNAPSHOT_DIR/$latest_snapshot/info.xml\"",
      "if [[ -f \"$info_file\" ]]; then",
      "    description=$(grep -oP '(?<=<description>).*(?=</description>)' \"$info_file\" " ++
        "2>/dev/null || echo \"\")",
      "    snap_type=$(grep -oP '(?<=<type>).*(?=</type>)' \"$info_file\" " ++
        "2>/dev/null || echo \"single\")",
      "else",
      "    description=\"\"",
      "    snap_type=\"single\"",
      "fi",
      "",
      "# send notification to logged-in user",
      "for uid in $(loginctl list-users --no-legend | awk '\x7bprint $1\x7d'); do",
      "    user=$(id -nu \"$uid\" 2>/dev/null || continue)",
      "    export DISPLAY=\":0\"",
      "    export DBUS_SESSION_BUS_ADDRESS=\"unix:path=/run/user/$uid/bus\"",
      "",
      "    title=\"Snapshot #$latest_snapshot created\"",
      "    body=\"$\x7bdescription:-$snap_type snapshot\x7d\"",
      "",
      "    sudo -u \"$user\" notify-send -i drive-harddisk -a \"Snapper\" \"$title\" \"$body\" " ++
        "2>/dev/null || true",
      "done",
      "",
      "echo \"$latest_snapshot\" > \"$LAST_NOTIFIED_FILE\""]

namespace SnapperStepExecutor

variable (config : InstallerConfig)

/-- Make room for a mount on the snapshots directory. -/
def removeSnapshotsDirectory (snapshotsDirectory : String) : Script Unit := do
  if ← probe (.subvolumeShow snapshotsDirectory) then tryRun_ (.subvolumeDelete snapshotsDirectory)
  else tryRun_ (.rmdir snapshotsDirectory)

/-- snapper expects `.snapshots` in the subvolume; the dedicated subvolume is mounted there instead
of the nested one that `snapper create-config` would make. -/
def prepareSnapshotsSubvolume (volume : SnapperVolumeConfig) : Script Unit := do
  let snapshotsDirectory := s!"{targetRoot}{volume.snapshotsPath}"
  let mounted ← isMountpoint snapshotsDirectory
  onlyIf mounted (run_ (.umount snapshotsDirectory))
  let found ← directoryExists snapshotsDirectory
  onlyIf found (removeSnapshotsDirectory snapshotsDirectory)
  run_ (.mkdir snapshotsDirectory)
  run_ (.mountSubvolume volume.snapshotsSubvolume config.storage.btrfs.mountOptions
    config.storage.cryptrootDevice snapshotsDirectory)
  run_ (.chmod "750" snapshotsDirectory)

/-- The body of the loop over the volumes. -/
def configureVolume (name : String) (volume : SnapperVolumeConfig) : Script Unit := do
  let configFile := s!"{targetRoot}/etc/snapper/configs/{name}"
  let found ← fileExists configFile
  if found then info s!"Snapper config '{name}' already exists, updating it."
  else prepareSnapshotsSubvolume config volume
  writeFile configFile (snapperVolumeConfig volume config.snapper.allowGroups)

def configureSnapPac : Script Unit := do
  run_ (.mkdir s!"{targetRoot}/etc/snap-pac.d")
  writeFile s!"{targetRoot}/etc/snap-pac.d/root.conf" snapPacRootConfig

def execute : Script Unit := do
  let snapper := config.snapper
  let groups := join ", " snapper.allowGroups
  info s!"Configuring snapper (allowed groups: {groups})..."
  let installed ← probe (.chroot (.pacmanQuery "snapper"))
  onlyIf (!installed) (runAsChroot_ (.pacmanInstall "snapper snap-pac"))
  run_ (.mkdir s!"{targetRoot}/etc/snapper/configs")
  run_ (.mkdir s!"{targetRoot}/etc/conf.d")
  forEach snapper.volumes fun (name, volume) => configureVolume config name volume
  let configuredNames := join " " (snapper.volumes.map (·.1))
  writeFile s!"{targetRoot}/etc/conf.d/snapper" s!"SNAPPER_CONFIGS=\"{configuredNames}\"\n"
  runAsChroot_ (.systemctlEnable "snapper-timeline.timer")
  runAsChroot_ (.systemctlEnable "snapper-cleanup.timer")
  onlyIf snapper.snapPac configureSnapPac

end SnapperStepExecutor

namespace BootableSnapshotsStepExecutor

variable (config : InstallerConfig)

/-- `boot.kernel_packages[0]`. -/
def preferredKernel : Script String :=
  match config.boot.kernelPackages with
  | kernel :: _ => return kernel
  | [] => raise (.index "tuple index out of range")

def execute : Script Unit := do
  let snapshotCount := config.snapper.bootableSnapshotCount
  info s!"Enabling bootable snapshots (newest {snapshotCount} get a UKI)..."
  let kernel ← preferredKernel config
  writeFile s!"{targetRoot}{snapshotManagerSettingsPath}"
    (snapshotManagerSettings snapshotCount kernel)
  run_ (.mkdir s!"{targetRoot}/etc/pacman.d/hooks {targetRoot}/usr/local/bin")
  writeFile s!"{targetRoot}/etc/pacman.d/hooks/95-snapshot-uki-refresh.hook"
    (snapshotRefreshPacmanHook config.boot.kernelPackages)
  let hookScript := s!"{targetRoot}{snapshotRefreshHookScript}"
  writeFile hookScript snapshotRefreshHookScriptContent
  run_ (.chmod "+x" hookScript)
  writeFile s!"{targetRoot}/etc/systemd/system/snapper-boot-entries.service"
    snapshotBootEntriesService
  writeFile s!"{targetRoot}/etc/systemd/system/snapper-boot-entries.path" snapshotBootEntriesPath
  runAsChroot_ (.systemctlEnable "snapper-boot-entries.path")

end BootableSnapshotsStepExecutor

namespace SnapshotNotificationsStepExecutor

def execute (_ : InstallerConfig) : Script Unit := do
  info "Enabling desktop notifications for new snapshots..."
  let notifyScript := s!"{targetRoot}/usr/local/bin/snapper-notify"
  run_ (.mkdir s!"{targetRoot}/usr/local/bin")
  writeFile notifyScript snapperNotifyScript
  run_ (.chmod "+x" notifyScript)
  writeFile s!"{targetRoot}/etc/systemd/system/snapper-notify.service" snapperNotifyService
  writeFile s!"{targetRoot}/etc/systemd/system/snapper-notify.path" snapperNotifyPath
  runAsChroot_ (.systemctlEnable "snapper-notify.path")

end SnapshotNotificationsStepExecutor

end ArchInstaller
