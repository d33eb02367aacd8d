import ArchInstaller.Config.ConfigFile
import ArchInstaller.Python.Views
import ArchInstaller.Verify.BackupContents
import ArchInstaller.Verify.BadDocuments
import ArchInstaller.Verify.Credentials
import ArchInstaller.Verify.CursesSetup
import ArchInstaller.Verify.Deniability
import ArchInstaller.Verify.DriveCapacity
import ArchInstaller.Verify.DriveChecks
import ArchInstaller.Verify.ExpectedState
import ArchInstaller.Verify.FailedCommit
import ArchInstaller.Verify.FreshVolume
import ArchInstaller.Verify.GivesBack
import ArchInstaller.Verify.HeaderKept
import ArchInstaller.Verify.KernelUkis
import ArchInstaller.Verify.LastCopy
import ArchInstaller.Verify.ListCursor
import ArchInstaller.Verify.MountOrder
import ArchInstaller.Verify.NestedCopies
import ArchInstaller.Verify.NestedDotfile
import ArchInstaller.Verify.OneAtATime
import ArchInstaller.Verify.OneRepository
import ArchInstaller.Verify.OrderOfSettings
import ArchInstaller.Verify.OverriddenSecrets
import ArchInstaller.Verify.PackageList
import ArchInstaller.Verify.PartitionNames
import ArchInstaller.Verify.PendingMarker
import ArchInstaller.Verify.Precedence
import ArchInstaller.Verify.ProtectedFiles
import ArchInstaller.Verify.RandomFill
import ArchInstaller.Verify.RemovableFstab
import ArchInstaller.Verify.Resume
import ArchInstaller.Verify.ResumeOffset
import ArchInstaller.Verify.SettingTexts
import ArchInstaller.Verify.SigningKey
import ArchInstaller.Verify.SkipKeepsVolume
import ArchInstaller.Verify.SnapshotCmdline
import ArchInstaller.Verify.StoredSecrets
import ArchInstaller.Verify.UkiCleanup
import ArchInstaller.Verify.UkiNames
