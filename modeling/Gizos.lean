import Gizos.Bundle.ManifestCheck
import Gizos.Loader.Mfg.Revision
import Gizos.Loader.Package.TreeName
import Gizos.Loader.Boot.NextBoot
import Gizos.Loader.Boot.Arming
import Gizos.Loader.Boot.FinalizeRecovery
import Gizos.Sctp.Window
import Gizos.Sctp.Padding
import Gizos.Sctp.Farewell
import Gizos.Sctp.Opening
import Gizos.Sctp.Karn
import Gizos.Sctp.Wire
import Gizos.Sctp.Deadline
import Gizos.Sctp.Pool
import Gizos.Lua.CrashSafe
import Gizos.Runtime.Pairing
import Gizos.Runtime.Consistency
import Gizos.Loader.Boot.Rearming
import Gizos.Loader.Boot.RolledBack
import Gizos.Loader.Package.Publish
import Gizos.Loader.Package.Chunking
import Gizos.Loader.Stage.Published
import Gizos.Gizclaw.PcmRing
import Gizos.Gizclaw.TimeStretch
import Gizos.Gizclaw.Resample
import Gizos.AudioMixer.Drain
import Gizos.Semver
import Gizos.Ntp
