import ArchInstaller.Executors.Base

/-! # System settings

`executors/system.py`, `docker.py`, `gpu.py` and `firewall.py`: hostname, timezone, locales and
the user account; the docker daemon; the proprietary NVIDIA driver; UFW. -/

namespace ArchInstaller

open Interaction.Program (forEach onlyIf)
open PyText Script

def hostsFile (hostname : String) : String :=
  unlines
    ["127.0.0.1   localhost", "::1         localhost",
      s!"127.0.1.1   {hostname}.localdomain {hostname}"]

def localeConf (locale : LocaleConfig) : String :=
  let categoryOverrides :=
    [("LC_MONETARY", locale.monetary), ("LC_TIME", locale.timeFormat),
      ("LC_NUMERIC", locale.numeric), ("LC_PAPER", locale.paper)]
  let kept := categoryOverrides.filter fun (_, value) => value != "" && value != locale.fullLocale
  join "\n" (s!"LANG={locale.fullLocale}" ::
    kept.map fun (category, value) => s!"{category}={value}") ++ "\n"

def localesToGenerate (locale : LocaleConfig) : List String :=
  let candidates :=
    [locale.fullLocale, locale.monetary, locale.timeFormat, locale.numeric, locale.paper]
  sorted (candidates.eraseDups.filter (· != ""))

def userGroups (username : String) : Script (List String) := do
  return fields (← query (.chroot (.idGroups username)))

namespace SystemStepExecutor

variable (config : InstallerConfig)

/-- The body of the loop over the locales. -/
def enableLocale (locale : String) : Script Unit :=
  tryRun_ (.sedInPlace s!"s/^#\\s*\\({locale}\\s\\)/\\1/" s!"{targetRoot}/etc/locale.gen")

/-- The branch of `_create_user` for a user that does not exist. -/
def addUser (user : UserConfig) : Script Unit := do
  let groups := join "," user.groups
  runAsChroot_ (.useradd groups user.name)
  info s!"User {user.name} created (groups: {groups})"
  tryRun_ (.sedInPlace "s/^#\\s*\\(%wheel ALL=(ALL:ALL) ALL\\)/\\1/" s!"{targetRoot}/etc/sudoers")

def setUserPassword : Script Unit := do
  let _ ← runWithInput (.chroot .chpasswd)
    s!"{config.system.user.name}:{config.credentials.userPassword}"

def createUser : Script Unit := do
  let user := config.system.user
  let found ← probe (.chroot (.id user.name))
  if found then info s!"User {user.name} already exists" else addUser user
  setUserPassword config

def execute : Script Unit := do
  let system := config.system
  info s!"Configuring {system.hostname} ({system.timezone}, {system.locale.fullLocale})..."
  writeFile s!"{targetRoot}/etc/hostname" s!"{system.hostname}\n"
  writeFile s!"{targetRoot}/etc/hosts" (hostsFile system.hostname)
  run_ (.rmForce s!"{targetRoot}/etc/localtime")
  run_ (.linkForce s!"/usr/share/zoneinfo/{system.timezone}" s!"{targetRoot}/etc/localtime")
  tryRunAsChroot_ .hwclock
  forEach (localesToGenerate system.locale) enableLocale
  tryRunAsChroot_ .localeGen
  writeFile s!"{targetRoot}/etc/locale.conf" (localeConf system.locale)
  writeFile s!"{targetRoot}/etc/vconsole.conf" s!"KEYMAP={system.locale.keymap}\n"
  createUser config

end SystemStepExecutor

/-! ## Docker -/

def dockerGroup : String := "docker"

def daemonJson (storageDriver dataRoot : String) : String :=
  unlines
    ["\x7b", s!"    \"storage-driver\": {jsonString storageDriver},",
      s!"    \"data-root\": {jsonString dataRoot}", "\x7d"]

def accessGroupSudoers (accessGroup : String) : String :=
  unlines
    [s!"# allow {accessGroup} group to run docker without password",
      s!"%{accessGroup} ALL=(ALL) NOPASSWD: /usr/bin/docker, /usr/bin/docker-compose"]

namespace DockerStepExecutor

/-- The body of the loop over the missing groups. -/
def addToGroup (username group : String) : Script Unit := do
  info s!"Adding {username} to the {group} group..."
  runAsChroot_ (.usermod group username)

/-- What `execute` does once the docker package is found. -/
def configure (config : InstallerConfig) : Script Unit := do
  let docker := config.docker
  info s!"Configuring docker ({docker.storageDriver} on {docker.dataRoot})..."
  run_ (.mkdir s!"{targetRoot}/etc/docker")
  writeFile s!"{targetRoot}/etc/docker/daemon.json"
    (daemonJson docker.storageDriver docker.dataRoot)
  tryRunAsChroot_ (.systemctlEnable "docker.service")
  let groupExists ← probe (.chroot (.getentGroup docker.accessGroup))
  onlyIf (!groupExists) (runAsChroot_ (.groupadd docker.accessGroup))
  let username := config.system.user.name
  let groups ← userGroups username
  let missingGroups := [dockerGroup, docker.accessGroup].eraseDups.filter fun group =>
    !groups.contains group
  forEach (sorted missingGroups) (addToGroup username)
  let sudoersFile := s!"{targetRoot}/etc/sudoers.d/{docker.accessGroup}"
  writeFile sudoersFile (accessGroupSudoers docker.accessGroup)
  run_ (.chmod "440" sudoersFile)

def execute (config : InstallerConfig) : Script Unit := do
  if ← probe (.chroot (.pacmanQuery "docker")) then configure config
  else warning "docker is enabled but the docker package is not installed, skipping"

end DockerStepExecutor

/-! ## The proprietary NVIDIA driver -/

def nvidiaModprobeDrmOptions : String := "options nvidia_drm modeset=1 fbdev=1"

def nvidiaInitramfsModules : List String := ["nvidia", "nvidia_modeset", "nvidia_uvm", "nvidia_drm"]

def nvidiaDriverPackages : List String := ["nvidia", "nvidia-dkms", "nvidia-open"]

def initramfsRebuildHook (kernelPackages : List String) : String :=
  unlines
    (["[Trigger]", "Operation=Install", "Operation=Upgrade", "Operation=Remove", "Type=Package"] ++
    (nvidiaDriverPackages ++ kernelPackages).map (fun package => s!"Target={package}") ++
    ["",
      "[Action]",
      "Description=Rebuilding initramfs after NVIDIA driver update...",
      "Depends=mkinitcpio",
      "When=PostTransaction",
      "NeedsTargets",
      "Exec=/bin/sh -c 'while read -r trg; do case $trg in linux*) exit 0; esac; done; " ++
        "/usr/bin/mkinitcpio -P'"])

namespace GpuDriverStepExecutor

def execute (config : InstallerConfig) : Script Unit := do
  let driver := if config.gpu.driver.value == "" then "dkms" else config.gpu.driver.value
  info s!"Configuring the NVIDIA {driver} driver..."
  run_ (.mkdir s!"{targetRoot}/etc/modprobe.d")
  writeFile s!"{targetRoot}/etc/modprobe.d/nvidia.conf" s!"{nvidiaModprobeDrmOptions}\n"
  run_ (.mkdir s!"{targetRoot}/etc/pacman.d/hooks")
  writeFile s!"{targetRoot}/etc/pacman.d/hooks/nvidia.hook"
    (initramfsRebuildHook config.boot.kernelPackages)

end GpuDriverStepExecutor

/-! ## The firewall -/

def ufwConf : String := s!"{targetRoot}/etc/ufw/ufw.conf"

def ufwBeforeRules : String := s!"{targetRoot}/etc/ufw/before.rules"

/-- The ACCEPT rules ufw ships for inbound ICMP. -/
def inboundIcmpAcceptRules : List String :=
  ["-A ufw-before-input -p icmp --icmp-type destination-unreachable -j ACCEPT",
    "-A ufw-before-input -p icmp --icmp-type time-exceeded -j ACCEPT",
    "-A ufw-before-input -p icmp --icmp-type parameter-problem -j ACCEPT",
    "-A ufw-before-input -p icmp --icmp-type echo-request -j ACCEPT"]

namespace FirewallStepExecutor

variable (config : InstallerConfig)

def setEnabledOnBoot (enabled : Bool) : Script Unit := do
  let flag := if enabled then "yes" else "no"
  run_ (.sedInPlace s!"s/^ENABLED=.*/ENABLED={flag}/" ufwConf)

def allowSsh : Script Unit := do
  let ssh := config.firewall.ssh
  runAsChroot_ (.ufw
    (if ssh.allowedFrom != "" then
      s!"allow from {ssh.allowedFrom} to any port {ssh.port} proto tcp"
    else s!"allow {ssh.port}/tcp"))
  runAsChroot_ (.systemctlEnable "sshd.service")

/-- The body of the loop over the ICMP rules. -/
def deleteRule (rule : String) : Script Unit := do
  let escapedRule := replaceChar '-' "\\-" (replaceChar '.' "\\." (replaceChar '/' "\\/" rule))
  tryRun_ (.sedInPlace s!"/{escapedRule}/d" ufwBeforeRules)

def execute : Script Unit := do
  let firewall := config.firewall
  info (s!"Configuring UFW (incoming {firewall.defaultIncoming.value}, " ++
    s!"outgoing {firewall.defaultOutgoing.value})...")
  let installed ← probe (.chroot (.pacmanQuery "ufw"))
  onlyIf (!installed) (runAsChroot_ (.pacmanInstall "ufw"))
  -- with the flag off every ufw call below is a pure config-file edit
  setEnabledOnBoot false
  runAsChroot_ (.ufw s!"default {firewall.defaultIncoming.value} incoming")
  runAsChroot_ (.ufw s!"default {firewall.defaultOutgoing.value} outgoing")
  onlyIf firewall.logging (runAsChroot_ (.ufw "logging on"))
  onlyIf firewall.blockIcmp (forEach inboundIcmpAcceptRules deleteRule)
  onlyIf firewall.ssh.enabled (allowSsh config)
  forEach firewall.allowRules fun rule => runAsChroot_ (.ufw s!"allow {rule.port}/{rule.protocol}")
  runAsChroot_ (.systemctlEnable "ufw.service")
  setEnabledOnBoot true

end FirewallStepExecutor

end ArchInstaller
