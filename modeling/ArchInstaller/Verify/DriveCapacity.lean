import ArchInstaller.Config.Sample
import ArchInstaller.Python.Binary64
import ArchInstaller.Verify.DriveChecks

/-! # The capacity of the USB boot drive

What `_require_capacity` asks for is what `_partition` takes, with a MiB to spare at both ends of the
drive. -/

namespace ArchInstaller

open Interaction PyText Script

/-! ## The claim -/

/-- `recovery_partition_size_mb`, with the quotient in floating point. -/
def recoveryPartitionSizeInFloats (isoSizeBytes : Int) : Option Int := do
  let isoSizeMb := Int.ceil (← Binary64.trueDivide isoSizeBytes mebibyte)
  return isoSizeMb + isoSizeMb / 10 + 64

/-- The sizes passed to `sgdisk`, in MiB. -/
def newPartitionSizes (exchanges : Exchanges) : List Int :=
  exchanges.filterMap fun x =>
    match x.1.command with
    | .sgdiskNew _ (.mebibytes size) _ _ => some size
    | _ => none

/-- Where the last of some partitions ends that are placed one after another from the first MiB. -/
def partitionsEnd (sizes : List Int) : Int := mebibyte + (sizes.map (· * mebibyte)).sum

namespace UsbBootDriveStepExecutor

/-- The capacity check finds a drive of a size, and does not raise. -/
def PassesCheck (config : InstallerConfig) (recoverySizeMb driveSizeBytes : Int) : Prop :=
  ∃ exchanges, Runs (requireCapacity config recoverySizeMb) exchanges (.returned ()) ∧
    ∀ x ∈ exchanges, parseInt (strip x.2.stdout) = some driveSizeBytes

/-- A drive that passes the check for an image of a size holds everything. -/
structure HoldsEverything (config : InstallerConfig) (isoSizeBytes : Int) : Prop where
  ceiling : (Binary64.trueDivide isoSizeBytes mebibyte).map Int.ceil =
    some ⌈(isoSizeBytes : ℚ) / mebibyte⌉
  recovery : ∃ sizeMb, recoveryPartitionSizeInFloats isoSizeBytes = some sizeMb ∧
    11 / 10 * (isoSizeBytes : ℚ) + 63 * mebibyte ≤ sizeMb * mebibyte
  fits : ∀ sizeMb, recoveryPartitionSizeInFloats isoSizeBytes = some sizeMb →
    ∀ driveSizeBytes, PassesCheck config sizeMb driveSizeBytes →
      ∀ exchanges outcome, Runs (partition config sizeMb) exchanges outcome →
        partitionsEnd (newPartitionSizes exchanges) + mebibyte ≤ driveSizeBytes

end UsbBootDriveStepExecutor

/-! ## The sizes -/

theorem mebibyte_eq : mebibyte = 2 ^ 20 := by decide

theorem ceiling_eq (n : Int) : ⌈(n : ℚ) / mebibyte⌉ = -(-n / mebibyte) := by
  rw [mebibyte_eq]
  exact_mod_cast Rat.ceil_intCast_div_natCast n (2 ^ 20)

theorem trueDivide_mebibyte {n : Int} (h : |n| < 2 ^ 53) :
    Binary64.trueDivide n mebibyte = some ((n : ℚ) / mebibyte) := by
  rw [mebibyte_eq, Binary64.trueDivide_two_pow h (by decide)]
  push_cast
  rfl

/-- The model's size is the one in floating point, as long as the image fits into the mantissa. -/
theorem recoveryPartitionSizeInFloats_eq {n : Int} (h : |n| < 2 ^ 53) :
    recoveryPartitionSizeInFloats n = some (recoveryPartitionSizeMb n) := by
  rw [recoveryPartitionSizeInFloats, trueDivide_mebibyte h]
  change some (⌈(n : ℚ) / mebibyte⌉ + ⌈(n : ℚ) / mebibyte⌉ / 10 + 64) = _
  rw [ceiling_eq, recoveryPartitionSizeMb]

theorem recoveryPartitionSizeMb_bound (n : Int) :
    11 * n + 630 * mebibyte ≤ 10 * (recoveryPartitionSizeMb n * mebibyte) := by
  simp only [recoveryPartitionSizeMb, mebibyte]
  omega

namespace UsbBootDriveStepExecutor

variable {config : InstallerConfig}

theorem PassesCheck.needed {recoverySizeMb driveSizeBytes : Int}
    (h : PassesCheck config recoverySizeMb driveSizeBytes) :
    partitionTableSizeMb + config.storage.efiSizeMb + luksHeaderPartitionSizeMb +
      recoverySizeMb ≤ driveSizeBytes / mebibyte := by
  obtain ⟨exchanges, hrun, hsize⟩ := h
  obtain ⟨size, rfl, bytes, ⟨-, hbytes⟩, hroom⟩ := runs_requireCapacity_returned hrun
  obtain rfl : bytes = driveSizeBytes := by
    simpa [hbytes] using hsize _ List.mem_cons_self
  exact hroom

/-- The sizes that a command passes to `sgdisk` are added to those before. -/
def sizesWorld : Machine Invocation CommandExecutionResult (List Int) :=
  fun sizes invocation result sizes' => sizes' = sizes ++ newPartitionSizes [(invocation, result)]

theorem replays_sizesWorld (sizes : List Int) (exchanges : Exchanges) :
    Replays sizesWorld sizes exchanges (sizes ++ newPartitionSizes exchanges) := by
  induction exchanges generalizing sizes with
  | nil => simp [newPartitionSizes]
  | cons x exchanges ih =>
    refine .cons rfl ?_
    have happend : newPartitionSizes (x :: exchanges) =
        newPartitionSizes [x] ++ newPartitionSizes exchanges := by
      rw [newPartitionSizes, newPartitionSizes, newPartitionSizes, ← List.filterMap_append]
      rfl
    rw [happend, ← List.append_assoc]
    exact ih _

/-- A command that makes no partition. -/
def MakesNone (invocation : Invocation) : Prop :=
  ∀ result, newPartitionSizes [(invocation, result)] = []

variable {sizes full : List Int}

theorem keeps_of_makesNone {p : Script Unit} (h : Issues MakesNone p) (hsizes : sizes <+: full) :
    Keeps sizesWorld sizes p (· <+: full) fun _ sizes' => sizes' = sizes := by
  refine h.keeps (I := fun sizes' => sizes' = sizes) ?_ rfl ?_
  · rintro invocation result _ sizes' hnone rfl hstep
    rw [hstep, hnone, List.append_nil]
  · rintro _ rfl
    exact hsizes

theorem keeps_sgdiskNew {number : Nat} {size : Int} {type device : String}
    (hsizes : sizes ++ [size] <+: full) :
    Keeps sizesWorld sizes (run_ (.sgdiskNew number (.mebibytes size) type device)) (· <+: full)
      fun _ sizes' => sizes' = sizes ++ [size] := by
  refine keeps_run_unit ((List.prefix_append _ _).trans hsizes) fun result sizes' hstep => ?_
  obtain rfl : sizes' = sizes ++ [size] := hstep
  exact ⟨hsizes, fun _ => rfl⟩

/-- The sizes are those of the EFI, the header and the recovery partition, as far as they were
made. -/
theorem newPartitionSizes_prefix {recoverySizeMb : Int} {exchanges : Exchanges}
    {outcome : Outcome InstallerError Unit}
    (hrun : Runs (partition config recoverySizeMb) exchanges outcome) :
    newPartitionSizes exchanges <+:
      [config.storage.efiSizeMb, luksHeaderPartitionSizeMb, recoverySizeMb] := by
  have hkeeps : Keeps sizesWorld [] (partition config recoverySizeMb)
      (· <+: [config.storage.efiSizeMb, luksHeaderPartitionSizeMb, recoverySizeMb])
        fun _ _ => True := by
    refine (keeps_of_makesNone (by simp [MakesNone, newPartitionSizes]) List.nil_prefix).bind ?_
    rintro _ _ hsizes rfl
    refine (keeps_of_makesNone (by simp [MakesNone, newPartitionSizes]) hsizes).bind ?_
    rintro _ _ hsizes rfl
    refine (keeps_sgdiskNew (by simp)).bind ?_
    rintro _ _ hsizes rfl
    refine (keeps_sgdiskNew (by simp)).bind ?_
    rintro _ sizes hsizes rfl
    have hrecovery : Keeps sizesWorld ([] ++ [config.storage.efiSizeMb] ++ [luksHeaderPartitionSizeMb])
        (Program.onlyIf (recoverySizeMb != 0)
          (run_ (.sgdiskNew 3 (.mebibytes recoverySizeMb) "8300" config.usbBoot.device)))
        (· <+: [config.storage.efiSizeMb, luksHeaderPartitionSizeMb, recoverySizeMb])
        fun _ _ => True :=
      Keeps.onlyIf (fun _ => (keeps_sgdiskNew (by simp)).mono fun _ _ _ _ => trivial) hsizes
        fun _ => trivial
    refine hrecovery.bind ?_
    rintro _ sizes hsizes -
    refine (keeps_of_makesNone ?_ hsizes).mono fun _ _ _ _ => trivial
    have hwait : ∀ device node, Issues MakesNone
        (UsbDriveInspector.waitForPartition device node) := by
      intro device node
      apply issues_waitForNode <;> simp [MakesNone, newPartitionSizes]
    simp [hwait, MakesNone, newPartitionSizes]
  have hreplay := replays_sizesWorld [] exchanges
  rw [List.nil_append] at hreplay
  exact (hkeeps exchanges outcome _ hrun hreplay).1

/-- Where the sizes of the check fit, so do those of the partitions that have been made. -/
theorem partitionsEnd_le {recoverySizeMb driveSizeBytes : Int} {exchanges : Exchanges}
    {outcome : Outcome InstallerError Unit} (hefi : 1 ≤ config.storage.efiSizeMb)
    (hrecovery : 0 ≤ recoverySizeMb) (hpasses : PassesCheck config recoverySizeMb driveSizeBytes)
    (hrun : Runs (partition config recoverySizeMb) exchanges outcome) :
    partitionsEnd (newPartitionSizes exchanges) + mebibyte ≤ driveSizeBytes := by
  have hneeded := hpasses.needed
  rw [Int.le_ediv_iff_mul_le (by decide)] at hneeded
  refine le_trans ?_ hneeded
  have hpre := newPartitionSizes_prefix hrun
  simp only [List.prefix_cons_iff, List.prefix_nil] at hpre
  rcases hpre with hsizes | ⟨_, hsizes, rfl | ⟨_, rfl, rfl | ⟨_, rfl, rfl⟩⟩⟩ <;> rw [hsizes] <;>
    simp only [partitionsEnd, mebibyte, partitionTableSizeMb, luksHeaderPartitionSizeMb,
      List.map_cons, List.map_nil, List.sum_cons, List.sum_nil] <;> omega

theorem holdsEverything (config : InstallerConfig) (blockCount : UInt32) (blockSize : UInt16)
    (hefi : 1 ≤ config.storage.efiSizeMb) :
    HoldsEverything config (blockCount.toNat * blockSize.toNat) := by
  have hcount := blockCount.toNat_lt
  have hsize := blockSize.toNat_lt
  have hmantissa : |(blockCount.toNat * blockSize.toNat : Int)| < 2 ^ 53 := by
    rw [abs_of_nonneg (by positivity)]
    have hproduct : blockCount.toNat * blockSize.toNat < 2 ^ 32 * 2 ^ 16 :=
      Nat.mul_lt_mul'' hcount hsize
    exact_mod_cast hproduct.trans (by decide)
  have hbound := recoveryPartitionSizeMb_bound (blockCount.toNat * blockSize.toNat)
  refine ⟨?_, ⟨_, recoveryPartitionSizeInFloats_eq hmantissa, ?_⟩, ?_⟩
  · rw [trueDivide_mebibyte hmantissa, Option.map_some]
  · have hbound' : 11 * ((blockCount.toNat * blockSize.toNat : Int) : ℚ) + 630 * mebibyte ≤
        10 * (recoveryPartitionSizeMb (blockCount.toNat * blockSize.toNat) * mebibyte) := by
      exact_mod_cast hbound
    linarith
  · intro sizeMb hsizeMb driveSizeBytes hpasses exchanges outcome hrun
    rw [recoveryPartitionSizeInFloats_eq hmantissa, Option.some.injEq] at hsizeMb
    subst hsizeMb
    refine partitionsEnd_le hefi ?_ hpasses hrun
    have hpositive : (0 : Int) ≤ blockCount.toNat * blockSize.toNat := by positivity
    simp only [mebibyte] at hbound
    omega

/-- An image of 781 MiB and a quarter. -/
theorem holdsEverything_sample : HoldsEverything sampleUsbConfig
    ((400000 : UInt32).toNat * (2048 : UInt16).toNat) :=
  holdsEverything sampleUsbConfig 400000 2048 (by decide)

end UsbBootDriveStepExecutor

end ArchInstaller
