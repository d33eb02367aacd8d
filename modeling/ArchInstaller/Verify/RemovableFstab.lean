import ArchInstaller.Executors.UsbBoot
import ArchInstaller.Python.Lines

/-! # The fstab of the removable EFI partition

The safeguards rewrite the fstab of the installed system, on a resumed installation once more. -/

namespace ArchInstaller

open PyText

/-! ## The claim -/

/-- The identifier of a partition is one word. -/
structure PartitionUuid where
  text : String
  isWord : IsWord text.toList

/-- The mount point of a line of an fstab is its second field. -/
def secondField (line : String) : Option String := (fields line)[1]?

def mountsEfi (line : String) : Bool := secondField line == some "/efi"

/-- The line that mounts the EFI partition on access. -/
def onDemandEntry (uuid : PartitionUuid) : String :=
  s!"PARTUUID={uuid.text}\t/efi\tvfat\t{removableEfiMountOptions}\t0 2"

/-- The lines of an fstab that stay. -/
def otherLines (fstab : String) : List String := (splitlines fstab).filter (!mountsEfi ·)

/-- An fstab is rewritten for a partition. -/
structure IsRewritten (fstab : String) (uuid : PartitionUuid) (rewritten : String) : Prop where
  lines : splitlines rewritten = otherLines fstab ++ [onDemandEntry uuid]
  once : (splitlines rewritten).filter mountsEfi = [onDemandEntry uuid]
  terminated : unlines (splitlines rewritten) = rewritten

/-- A text is its lines: no line has a newline, and each ends with one, but for that of the last
line. -/
structure HasLines (text : String) (lines : List String) : Prop where
  line : ∀ line ∈ lines, '\n' ∉ line.toList
  whole : (unlines lines).toList = text.toList ++ missingNewline text.toList

/-- Rewriting an fstab is exact and repeatable. -/
structure RewritesExactly (fstab : String) (uuid uuid' : PartitionUuid) : Prop where
  hasLines : HasLines fstab (splitlines fstab)
  entry : fields (onDemandEntry uuid) =
    ["PARTUUID=" ++ uuid.text, "/efi", "vfat", removableEfiMountOptions, "0", "2"]
  isRewritten : IsRewritten fstab uuid (removableEfiFstab fstab uuid.text)
  again : removableEfiFstab (removableEfiFstab fstab uuid.text) uuid'.text =
    removableEfiFstab fstab uuid'.text

/-! ## The entry -/

theorem isWord_mountOptions : IsWord removableEfiMountOptions.toList := by
  decide

theorem PartitionUuid.isWord_source (uuid : PartitionUuid) :
    IsWord ("PARTUUID=" ++ uuid.text).toList := by
  rw [String.toList_append]
  exact isWord_append (by decide) uuid.isWord

theorem fields_onDemandEntry (uuid : PartitionUuid) : fields (onDemandEntry uuid) =
    ["PARTUUID=" ++ uuid.text, "/efi", "vfat", removableEfiMountOptions, "0", "2"] := by
  have hentry : onDemandEntry uuid = "PARTUUID=" ++ uuid.text ++ "\t" ++ ("/efi" ++ "\t" ++
      ("vfat" ++ "\t" ++ (removableEfiMountOptions ++ "\t" ++ ("0" ++ " " ++ "2")))) := by
    simp only [onDemandEntry, String.append_assoc]
    rfl
  have htab {word : String} (hword : IsWord word.toList) (hne : word ≠ "") (rest : String) :
      fields (word ++ "\t" ++ rest) = word :: fields rest :=
    fields_separated hword hne rfl (by decide) rest
  rw [hentry, htab uuid.isWord_source (by simp), htab (by decide) (by decide),
    htab (by decide) (by decide), htab isWord_mountOptions (by decide),
    fields_cons (by decide) (by decide),
    fields_singleton (by decide) (by decide)]

theorem mountsEfi_onDemandEntry (uuid : PartitionUuid) : mountsEfi (onDemandEntry uuid) = true := by
  rw [mountsEfi, secondField, fields_onDemandEntry]
  rfl

theorem isLine_onDemandEntry (uuid : PartitionUuid) : IsLine (onDemandEntry uuid).toList := by
  have hentry : onDemandEntry uuid = "PARTUUID=" ++ uuid.text ++
      ("\t/efi\tvfat\t" ++ removableEfiMountOptions ++ "\t0 2") := by
    simp only [onDemandEntry, String.append_assoc]
    rfl
  rw [hentry, String.toList_append]
  exact isLine_append uuid.isWord_source.isLine (by decide +kernel)

/-! ## The rewriting -/

/-- The slice of the source and the second field. -/
theorem take_drop_fields (line : String) :
    (((fields line).drop 1).take 1 != ["/efi"]) = !mountsEfi line := by
  rw [mountsEfi, secondField, bne, ← List.head?_drop]
  cases (fields line).drop 1 <;> simp

theorem removableEfiFstab_eq (fstab : String) (uuid : PartitionUuid) :
    removableEfiFstab fstab uuid.text = unlines (otherLines fstab ++ [onDemandEntry uuid]) := by
  rw [← join_newline, removableEfiFstab, otherLines]
  simp only [take_drop_fields]
  rfl

theorem splitlines_removableEfiFstab (fstab : String) (uuid : PartitionUuid) :
    splitlines (removableEfiFstab fstab uuid.text) = otherLines fstab ++ [onDemandEntry uuid] := by
  rw [removableEfiFstab_eq, splitlines_unlines]
  intro line hline
  rcases List.mem_append.mp hline with hline | hline
  · exact isLine_of_mem_splitlines (List.mem_filter.mp hline).1
  · rw [List.mem_singleton.mp hline]
    exact isLine_onDemandEntry uuid

theorem filter_otherLines (fstab : String) : (otherLines fstab).filter mountsEfi = [] := by
  rw [List.filter_eq_nil_iff]
  intro line hline hefi
  have hother := (List.mem_filter.mp hline).2
  rw [hefi] at hother
  exact Bool.false_ne_true hother

/-- The entry of the last time does not stay. -/
theorem otherLines_removableEfiFstab (fstab : String) (uuid : PartitionUuid) :
    otherLines (removableEfiFstab fstab uuid.text) = otherLines fstab := by
  rw [otherLines, splitlines_removableEfiFstab, List.filter_append, otherLines, List.filter_filter,
    List.filter_singleton, mountsEfi_onDemandEntry]
  simp

theorem isRewritten (fstab : String) (uuid : PartitionUuid) :
    IsRewritten fstab uuid (removableEfiFstab fstab uuid.text) where
  lines := splitlines_removableEfiFstab fstab uuid
  once := by
    rw [splitlines_removableEfiFstab, List.filter_append, filter_otherLines, List.nil_append,
      List.filter_singleton, mountsEfi_onDemandEntry]
    rfl
  terminated := by rw [splitlines_removableEfiFstab, removableEfiFstab_eq]

theorem hasLines_splitlines {text : String} (h : NewlineOnly text.toList) :
    HasLines text (splitlines text) where
  line := by
    intro line hline hnewline
    exact absurd (isLine_of_mem_splitlines hline '\n' hnewline) (by decide)
  whole := unlines_splitlines h

theorem removableEfiFstab_exact {fstab : String} (h : NewlineOnly fstab.toList)
    (uuid uuid' : PartitionUuid) : RewritesExactly fstab uuid uuid' where
  hasLines := hasLines_splitlines h
  entry := fields_onDemandEntry uuid
  isRewritten := isRewritten fstab uuid
  again := by rw [removableEfiFstab_eq, otherLines_removableEfiFstab, removableEfiFstab_eq]

def generatedFstab : String :=
  unlines
    ["# /dev/mapper/cryptroot", "UUID=aaaa\t/\tbtrfs\trw,subvol=/@\t0 0", "# /dev/sdb1",
      "UUID=ABCD-1234\t/efi\tvfat\trw,fmask=0077,dmask=0077\t0 2"]

theorem removableEfiFstab_exact_generated :
    RewritesExactly generatedFstab ⟨"1111-efi", by decide⟩
      ⟨"2222-efi", by decide⟩ :=
  removableEfiFstab_exact (by decide +kernel) _ _

/-- Blank and short lines stay, and so do entries for paths that start with `/efi`. -/
example : otherLines "\n  \n# efi\nUUID=a /efi2 vfat\n\tUUID=b\t/efi\nUUID=c /efi/EFI vfat" =
    ["", "  ", "# efi", "UUID=a /efi2 vfat", "UUID=c /efi/EFI vfat"] := by
  decide

end ArchInstaller
