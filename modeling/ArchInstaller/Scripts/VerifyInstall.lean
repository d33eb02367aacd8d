import ArchInstaller.Python.Text

/-! # `verify_uki` of `verify_install.sh`

Which UKIs the script finds on the ESP, and which kernels it finds bootable by them. -/

namespace ArchInstaller.VerifyInstall

open PyText

inductive Report where
  | pass (message : String)
  | fail (message : String)
  | warn (message : String)
  | info (message : String)
  deriving DecidableEq

/-! ## Patterns -/

/-- An asterisk in front of the rest of a pattern. -/
def anyThen (rest : List Char → Bool) : List Char → Bool
  | [] => rest []
  | c :: cs => rest (c :: cs) || (c != '/' && anyThen rest cs)

/-- A path that a pattern matches. Of what is special in a pattern, only asterisks and question
marks are treated. -/
def glob : List Char → List Char → Bool
  | [], cs => cs.isEmpty
  | p :: pattern, cs =>
    if p = '*' then anyThen (glob pattern) cs
    else
      match cs with
      | [] => false
      | c :: cs => (if p = '?' then c != '/' else p == c) && glob pattern cs

/-- The words that an unquoted variable is split into. -/
def ifsWords (text : String) : List String :=
  (split " " (replaceChar '\t' " " (replaceChar '\n' " " text))).filter (· != "")

/-! ## The check -/

/-- What the script finds on the system. -/
structure System where
  /-- `mountpoint -q /efi`. -/
  espMounted : Bool
  /-- `[[ -d /efi/EFI/Linux ]]`. -/
  directoryExists : Bool
  /-- The paths of the files in the directory. -/
  files : List String
  /-- The first field of `du -h`. -/
  size : String → String
  /-- `file` says that it is a PE32+ executable. -/
  isPe : String → Bool
  verbose : Bool

def ukiDir : String := "/efi/EFI/Linux"

/-- The loop over the UKIs that there are. -/
def foundUkis (system : System) : List Report :=
  let ukis := system.files.filter fun file => glob (ukiDir ++ "/*.efi").toList file.toList
  let reports := ukis.flatMap fun uki =>
    .pass s!"{afterLastSlash uki} ({system.size uki})" ::
      if system.isPe uki then
        if system.verbose then [.info "  Valid PE32+ executable"] else []
      else [.warn "  May not be a valid UKI (not PE32+ format)"]
  reports ++
    [if ukis.isEmpty then .fail s!"No UKI files found in {ukiDir}"
      else .pass s!"Found {ukis.length} UKI file(s)"]

/-- The loop over the expected kernels. -/
def verifyKernels (expectedKernelPackages : String) (files : List String) : List Report :=
  (ifsWords expectedKernelPackages).map fun kernelPackage =>
    let pattern := ukiDir ++ "/arch-" ++ kernelPackage ++ "-*.efi"
    if files.any fun file => glob pattern.toList file.toList then
      .pass s!"UKI exists for kernel: {kernelPackage}"
    else .fail s!"No UKI found for kernel: {kernelPackage}"

/-- `verify_uki`. -/
def verifyUki (expectedKernelPackages : String) (system : System) : List Report :=
  if !system.espMounted then [.fail "EFI partition is NOT mounted at /efi"]
  else
    .pass "EFI partition is mounted at /efi" ::
      if !system.directoryExists then [.fail s!"UKI directory does NOT exist: {ukiDir}"]
      else
        .pass s!"UKI directory exists: {ukiDir}" ::
          (foundUkis system ++ verifyKernels expectedKernelPackages system.files)

end ArchInstaller.VerifyInstall
