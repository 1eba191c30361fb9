import Gizos.Pal.Pref

/-! # Persistent values of the loader

The `h2loader` preference namespace: three metadata blobs, the boot intent, the last
result, the manufacturing record and its acceptance revision.
-/
namespace Gizos.Loader

/-- Contents of the `h2loader` preference namespace, one field a key. -/
structure Preferences where
  /-- Key `stage`. -/
  stage : Option Bytes := none
  /-- Key `partition_1`. -/
  partition1 : Option Bytes := none
  /-- Key `partition_2`. -/
  partition2 : Option Bytes := none
  /-- Key `boot_intent`. -/
  bootIntent : Option Nat := none
  /-- Key `last_result`. -/
  lastResult : Option Int := none
  /-- Key `mfg`. -/
  mfg : Option Bytes := none
  /-- Key `mfg_acceptance_revision`. -/
  mfgAcceptanceRevision : Option Nat := none
deriving Repr, DecidableEq

end Gizos.Loader
