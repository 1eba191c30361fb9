import Gizos.Codec
import Mathlib.Data.List.Basic

/-! # NTP timestamps

A timestamp of `h2_ntp_packet.c` counts the seconds since 1900 modulo `2 ^ 32`, with a fraction of
the second. Its era is told from a reference time: of the candidates in the era of the reference
and the two beside it, the nearest is taken. Times are milliseconds of the Unix clock.
-/
namespace Gizos.Ntp

/-- `H2_NTP_ERR_MALFORMED`. -/
def errMalformed : Int := -4
/-- `H2_NTP_ERR_UNSYNCED`. -/
def errUnsynced : Int := -5
/-- `H2_NTP_ERR_TXID_MISMATCH`. -/
def errTxidMismatch : Int := -6

/-- `H2_NTP_UNIX_EPOCH_DELTA`. -/
def unixEpochDelta : Nat := 2208988800
/-- `H2_NTP_ERA_SECONDS`. -/
def eraSeconds : Nat := 2 ^ 32
/-- `UINT64_MAX`. -/
def uint64Max : Nat := 2 ^ 64 - 1

/-- `read_u32`. -/
def readU32 (bytes : Bytes) : Nat :=
  (bytes.take 4).foldl (fun value byte => value * 256 + byte.toNat) 0

/-- `write_u32`. -/
def writeU32 (value : Nat) : Bytes :=
  [value / 2 ^ 24, value / 2 ^ 16, value / 2 ^ 8, value].map UInt8.ofNat

/-- `ntp_seconds_to_unix_ms`. -/
def ntpSecondsToUnixMs (ntpSeconds fraction : Nat) : Option Nat :=
  if ntpSeconds < unixEpochDelta then none
  else
    let unixS := ntpSeconds - unixEpochDelta
    let ms := (fraction * 1000 + 2 ^ 31) / 2 ^ 32
    if unixS > uint64Max / 1000 ∨ uint64Max - unixS * 1000 < ms then none
    else some (unixS * 1000 + ms)

/-- `abs_diff_u64`. -/
def absDiff (left right : Nat) : Nat := if left ≥ right then left - right else right - left

/-- The loop over the eras: the best candidate so far, with its distance. -/
def nearest (seconds fraction reference : Nat) : List Nat → Option (Nat × Nat) → Option (Nat × Nat)
  | [], best => best
  | era :: rest, best =>
    if era > uint64Max / eraSeconds ∨ uint64Max - eraSeconds * era < seconds then best
    else
      match ntpSecondsToUnixMs (eraSeconds * era + seconds) fraction with
      | none => nearest seconds fraction reference rest best
      | some candidate =>
        let diff := absDiff candidate reference
        nearest seconds fraction reference rest
          (if best.all fun least => diff < least.2 then some (candidate, diff) else best)

/-- The seconds since 1900, of every era. -/
def ntpS (unixMs : Nat) : Nat := unixMs / 1000 + unixEpochDelta

/-- `timestamp_to_unix_ms_near`. -/
def timestampToUnixMsNear (seconds fraction reference : Nat) : Option Nat :=
  if uint64Max - reference / 1000 < unixEpochDelta then none
  else
    let baseEra := ntpS reference / eraSeconds
    let firstEra := if baseEra = 0 then 0 else baseEra - 1
    let lastEra := if baseEra = uint64Max then uint64Max else baseEra + 1
    (nearest seconds fraction reference (List.range' firstEra (lastEra + 1 - firstEra)) none).map
      Prod.fst

/-- The fraction of a timestamp. -/
def fractionOf (unixMs : Nat) : Nat := unixMs % 1000 * 2 ^ 32 / 1000

/-- `h2_ntp_unix_ms_to_timestamp`. -/
def unixMsToTimestamp (unixMs : Nat) : Option (Nat × Nat) :=
  if uint64Max - unixMs / 1000 < unixEpochDelta then none
  else some (ntpS unixMs % 2 ^ 32, fractionOf unixMs)

/-- `h2_ntp_build_request`. -/
def buildRequest (unixMs : Nat) : Option Bytes :=
  (unixMsToTimestamp unixMs).map fun stamp =>
    0x23 :: List.replicate 39 0 ++ writeU32 stamp.1 ++ writeU32 stamp.2

/-- `h2_ntp_sync_result_t`, as far as a response fills it. -/
structure SyncResult where
  serverUnixMs : Nat
  localReceiveMonotonicMs : Nat
  roundTripMs : Int
  offsetMs : Int
deriving Repr, DecidableEq

/-- `h2_ntp_parse_response`. -/
def parseResponse (packet : Bytes) (expectedOriginate localWall localMonotonic : Nat) :
    Except Int SyncResult :=
  let word (offset : Nat) := readU32 (packet.drop offset)
  let near (offset reference : Nat) :=
    timestampToUnixMsNear (word offset) (word (offset + 4)) reference
  let isZero (offset : Nat) : Bool := word offset = 0 ∧ word (offset + 4) = 0
  let signed (time : Nat) : Int := (BitVec.ofNat 64 time).toInt
  match near 24 expectedOriginate with
  | none => .error errMalformed
  | some originate =>
    if originate ≠ expectedOriginate then .error errTxidMismatch
    else
      let first := packet.headD 0
      let stratum := packet.getD 1 0
      if first >>> 6 = 3 ∨ first &&& 7 ≠ 4 ∨ stratum = 0 ∨ stratum ≥ 16 then .error errUnsynced
      else if isZero 32 || isZero 40 then .error errMalformed
      else
        match near 32 localWall, near 40 localWall with
        | some receive, some transmit =>
          let t1 := signed expectedOriginate
          let t2 := signed receive
          let t3 := signed transmit
          let t4 := signed localWall
          .ok {
            serverUnixMs := transmit
            localReceiveMonotonicMs := localMonotonic
            roundTripMs := min (2 ^ 32 - 1) (max 0 (t4 - t1 - (t3 - t2)))
            offsetMs := (t2 - t1 + (t3 - t4)).tdiv 2 }
        | _, _ => .error errMalformed

/-- A word read back is the word that was written. -/
theorem readU32_writeU32 {value : Nat} (fits : value < 2 ^ 32) (rest : Bytes) :
    readU32 (writeU32 value ++ rest) = value := by
  simp [readU32, writeU32]
  omega

variable {time reference : Nat}

/-- The fraction of a millisecond is cut off and rounds back. -/
theorem ntpSecondsToUnixMs_fraction {seconds : Nat} (low : seconds < 2 ^ 54) :
    ntpSecondsToUnixMs seconds (fractionOf time) = if seconds < unixEpochDelta then none
      else some ((seconds - unixEpochDelta) * 1000 + time % 1000) := by
  have rounded : (fractionOf time * 1000 + 2 ^ 31) / 2 ^ 32 = time % 1000 := by
    unfold fractionOf
    omega
  have fits : ¬(seconds - unixEpochDelta > uint64Max / 1000 ∨
      uint64Max - (seconds - unixEpochDelta) * 1000 < time % 1000) := by
    unfold uint64Max
    omega
  unfold ntpSecondsToUnixMs
  dsimp only
  rw [rounded, if_neg fits]

section Near

variable (close : absDiff time reference < 2 ^ 31 * 1000)

include close

/-- A candidate of another era is further away. -/
theorem absDiff_lt_of_era {era : Nat} (other : era ≠ ntpS time / eraSeconds)
    (late : ¬eraSeconds * era + ntpS time % 2 ^ 32 < unixEpochDelta) :
    absDiff time reference <
      absDiff ((eraSeconds * era + ntpS time % 2 ^ 32 - unixEpochDelta) * 1000 + time % 1000)
        reference := by
  unfold absDiff ntpS unixEpochDelta eraSeconds at *
  split_ifs at * <;> omega

variable (early : time < 2 ^ 63)

include early

/-- The loop ends with the time itself: it has led since its own era, and is ahead of the others. -/
theorem nearest_eq {eras : List Nat} {best : Option (Nat × Nat)}
    (bounded : ∀ era ∈ eras, era < 2 ^ 22)
    (led : best = some (time, absDiff time reference) ∨
      ntpS time / eraSeconds ∈ eras ∧ ∀ least ∈ best, absDiff time reference < least.2) :
    nearest (ntpS time % 2 ^ 32) (fractionOf time) reference eras best =
      some (time, absDiff time reference) := by
  induction eras generalizing best with
  | nil =>
    rcases led with same | ⟨⟨⟩, -⟩
    exact same
  | cons era rest ih =>
    rw [List.forall_mem_cons] at bounded
    have low := bounded.1
    have ongoing : ¬(era > uint64Max / eraSeconds ∨
        uint64Max - eraSeconds * era < ntpS time % 2 ^ 32) := by
      unfold uint64Max eraSeconds
      omega
    rw [nearest, if_neg ongoing, ntpSecondsToUnixMs_fraction (by unfold eraSeconds; omega)]
    by_cases own : era = ntpS time / eraSeconds
    · have whole : eraSeconds * era + ntpS time % 2 ^ 32 = ntpS time := by
        rw [own]
        exact Nat.div_add_mod _ _
      have back : (ntpS time - unixEpochDelta) * 1000 + time % 1000 = time := by
        unfold ntpS
        omega
      rw [whole, if_neg (by unfold ntpS; omega), back]
      refine ih bounded.2 (.inl ?_)
      rcases led with rfl | ⟨-, led⟩
      · simp
      · refine if_pos ?_
        cases best with
        | none => rfl
        | some least => exact decide_eq_true (led least rfl)
    · have there := fun inside : _ ∈ era :: rest =>
        (List.mem_cons.mp inside).resolve_left (Ne.symm own)
      split_ifs with late
      · exact ih bounded.2 (led.imp_right fun led => ⟨there led.1, led.2⟩)
      · have far := absDiff_lt_of_era close own late
        refine ih bounded.2 ?_
        rcases led with rfl | ⟨inside, led⟩
        · exact .inl (if_neg (by simpa using far.le))
        · refine .inr ⟨there inside, fun least => ?_⟩
          split_ifs
          · rintro ⟨⟩
            exact far
          · exact led least

/-- The era of the time is the era of the reference or one beside it. -/
theorem timestampToUnixMsNear_eq (short : reference < 2 ^ 63) :
    timestampToUnixMsNear (ntpS time % 2 ^ 32) (fractionOf time) reference = some time := by
  unfold timestampToUnixMsNear
  rw [if_neg (by unfold uint64Max unixEpochDelta; omega)]
  dsimp only
  rw [nearest_eq close early]
  · rfl
  · intro era member
    rw [List.mem_range'_1] at member
    unfold ntpS unixEpochDelta eraSeconds uint64Max at member
    split_ifs at member <;> omega
  · refine .inr ⟨List.mem_range'_1.mpr ?_, by simp⟩
    unfold absDiff ntpS unixEpochDelta eraSeconds uint64Max at *
    split_ifs at * <;> omega

end Near

/-- A time comes back from its timestamp near every reference closer than half an era, and a
response that echoes the timestamp of the request is never taken for another's. -/
theorem near_exact_and_echo_matches {time reference : Nat} (early : time < 2 ^ 63)
    (short : reference < 2 ^ 63) (close : absDiff time reference < 2 ^ 31 * 1000) :
    ((unixMsToTimestamp time).bind fun stamp =>
      timestampToUnixMsNear stamp.1 stamp.2 reference) = some time ∧
    ∀ request response localWall localMonotonic, buildRequest time = some request →
      (response.drop 24).take 8 = (request.drop 40).take 8 →
      parseResponse response time localWall localMonotonic ≠ .error errTxidMismatch := by
  have stamped : unixMsToTimestamp time = some (ntpS time % 2 ^ 32, fractionOf time) :=
    if_neg (by unfold uint64Max unixEpochDelta; omega)
  refine ⟨?_, ?_⟩
  · rw [stamped]
    exact timestampToUnixMsNear_eq close early short
  · intro request response localWall localMonotonic built echoed
    rw [buildRequest, stamped] at built
    cases built
    have seconds : readU32 (response.drop 24) = ntpS time % 2 ^ 32 := by
      have front := congrArg (List.take 4) echoed
      rw [List.take_take] at front
      exact (congrArg _ front).trans (readU32_writeU32 (Nat.mod_lt _ (by decide)) [])
    have fraction : readU32 (response.drop 28) = fractionOf time := by
      have back := congrArg (List.drop 4) echoed
      rw [List.drop_take, List.drop_drop] at back
      exact (congrArg _ back).trans (readU32_writeU32 (by unfold fractionOf; omega) [])
    have near := timestampToUnixMsNear_eq (by simp [absDiff]) early early
    unfold parseResponse
    simp only [seconds, fraction, near, ne_eq, not_true, if_false]
    split_ifs
    · decide
    · decide
    · split
      · simp
      · decide

/-- A time after the rollover of 2036 comes back near a reference before it. -/
theorem near_exact_rollover : timestampToUnixMsNear 0 528280977 2085978495000 =
    some 2085978496123 :=
  (@near_exact_and_echo_matches 2085978496123 2085978495000 (by decide) (by decide) (by decide)).1

end Gizos.Ntp
