import Gizos.Sctp.Crc32c

/-! # Packets on the wire

The common header of `h2_sctp_wire.c`, with the checksum in it. Numbers are written with the high
byte first, and only the checksum with the low byte first.
-/
namespace Gizos.Sctp

open Crc Pal

/-- `h2_sctp_wire_write_u16`. -/
def writeU16 (value : UInt16) : Bytes := [(value >>> 8).toUInt8, value.toUInt8]

/-- `h2_sctp_wire_read_u16`. -/
def readU16 (data : Bytes) : UInt16 :=
  ((data.getD 0 0).toUInt16 <<< 8) ||| (data.getD 1 0).toUInt16

/-- `h2_sctp_wire_write_u32`. -/
def writeU32 (value : UInt32) : Bytes :=
  [(value >>> 24).toUInt8, (value >>> 16).toUInt8, (value >>> 8).toUInt8, value.toUInt8]

/-- `h2_sctp_wire_read_u32`. -/
def readU32 (data : Bytes) : UInt32 :=
  ((data.getD 0 0).toUInt32 <<< 24) ||| ((data.getD 1 0).toUInt32 <<< 16) |||
    ((data.getD 2 0).toUInt32 <<< 8) ||| (data.getD 3 0).toUInt32

/-- `h2_sctp_wire_write_crc`. -/
def writeCrc (value : BitVec 32) : Bytes :=
  [⟨value.setWidth 8⟩, ⟨(value >>> 8).setWidth 8⟩, ⟨(value >>> 16).setWidth 8⟩,
    ⟨(value >>> 24).setWidth 8⟩]

/-- `h2_sctp_wire_read_crc`. -/
def readCrc (data : Bytes) : BitVec 32 :=
  (data.getD 0 0).toBitVec.setWidth 32 ||| ((data.getD 1 0).toBitVec.setWidth 32 <<< 8) |||
    ((data.getD 2 0).toBitVec.setWidth 32 <<< 16) ||| ((data.getD 3 0).toBitVec.setWidth 32 <<< 24)

/-- `h2_sctp_packet_view_t`. -/
structure PacketView where
  sourcePort : UInt16
  destinationPort : UInt16
  verificationTag : UInt32
  chunks : Bytes
deriving Repr, DecidableEq

/-- `h2_sctp_wire_write_common_header`. -/
def writeCommonHeader (sourcePort destinationPort : UInt16) (verificationTag : UInt32) : Bytes :=
  writeU16 sourcePort ++ writeU16 destinationPort ++ writeU32 verificationTag ++ [0, 0, 0, 0]

/-- `h2_sctp_wire_finish_packet`. -/
def finishPacket (address zeros : Nat) (packet : Bytes) : Bytes :=
  packet.take 8 ++ writeCrc (crc32cPacket address zeros packet) ++ packet.drop 12

/-- `h2_sctp_wire_parse_packet`. -/
def parsePacket (address zeros : Nat) (packet : Bytes) : Except Int PacketView :=
  if packet.length < commonHeaderSize then .error errTruncated
  else if readCrc (packet.drop 8) ≠ crc32cPacket address zeros packet then .error errFormat
  else .ok {
    sourcePort := readU16 packet
    destinationPort := readU16 (packet.drop 2)
    verificationTag := readU32 (packet.drop 4)
    chunks := packet.drop commonHeaderSize }

/-- `h2_sctp_wire_build_packet` into a buffer at an address. -/
def buildPacket (address zeros : Nat) (sourcePort destinationPort : UInt16)
    (verificationTag : UInt32) (chunks : Bytes) (capacity : Nat) : Except Int Bytes :=
  if sourcePort = 0 ∨ destinationPort = 0 ∨ chunks.length < 4 ∨
      capacity < commonHeaderSize + chunks.length then .error errInvalidArg
  else .ok (finishPacket address zeros
    (writeCommonHeader sourcePort destinationPort verificationTag ++ chunks))

theorem lowByte_of_small {width : Nat} {value : BitVec width} (small : value.toNat < 256) :
    lowByte value = value := by
  apply BitVec.eq_of_toNat_eq
  rw [lowByte, BitVec.toNat_setWidth, BitVec.toNat_setWidth]
  have bound := value.isLt
  rw [Nat.mod_eq_of_lt (show value.toNat < 2 ^ 8 by omega), Nat.mod_eq_of_lt bound]

theorem word_bytes (value : BitVec 32) :
    (word [⟨value.setWidth 8⟩, ⟨(value >>> 8).setWidth 8⟩, ⟨(value >>> 16).setWidth 8⟩,
      ⟨(value >>> 24).setWidth 8⟩] : BitVec 32) = value := by
  have top : lowByte (value >>> 24) = value >>> 24 := by
    apply lowByte_of_small
    rw [BitVec.toNat_ushiftRight]
    omega
  have third := lowByte_xor_high (value >>> 16)
  have second := lowByte_xor_high (value >>> 8)
  rw [← BitVec.shiftRight_add] at third second
  calc
    word _ = lowByte value ^^^ ((lowByte (value >>> 8) ^^^ ((lowByte (value >>> 16) ^^^
        ((lowByte (value >>> 24) ^^^ (0#32 <<< 8)) <<< 8)) <<< 8)) <<< 8) := rfl
    _ = lowByte value ^^^ ((lowByte (value >>> 8) ^^^ ((lowByte (value >>> 16) ^^^
        ((value >>> 24) <<< 8)) <<< 8)) <<< 8) := by
      rw [top, BitVec.zero_shiftLeft, BitVec.xor_zero]
    _ = lowByte value ^^^ ((lowByte (value >>> 8) ^^^ ((value >>> 16) <<< 8)) <<< 8) := by
      rw [third]
    _ = lowByte value ^^^ ((value >>> 8) <<< 8) := by rw [second]
    _ = value := lowByte_xor_high value

theorem readCrc_writeCrc (value : BitVec 32) (rest : Bytes) :
    readCrc (writeCrc value ++ rest) = value := by
  have read := word_eq ⟨value.setWidth 8⟩ ⟨(value >>> 8).setWidth 8⟩ ⟨(value >>> 16).setWidth 8⟩
    ⟨(value >>> 24).setWidth 8⟩
  rw [word_bytes] at read
  exact read

theorem readU32_writeU32 (value : UInt32) (rest : Bytes) :
    readU32 (writeU32 value ++ rest) = value := by
  apply UInt32.toBitVec_inj.mp
  have read := word_eq ⟨value.toBitVec.setWidth 8⟩ ⟨(value.toBitVec >>> 8).setWidth 8⟩
    ⟨(value.toBitVec >>> 16).setWidth 8⟩ ⟨(value.toBitVec >>> 24).setWidth 8⟩
  rw [word_bytes] at read
  have reversed : ∀ a b c d : BitVec 32, a ||| b ||| c ||| d = d ||| c ||| b ||| a := by
    intro a b c d
    rw [BitVec.or_comm (a ||| b ||| c), BitVec.or_comm (a ||| b), BitVec.or_comm a,
      ← BitVec.or_assoc, ← BitVec.or_assoc]
  exact (reversed _ _ _ _).trans read

theorem readU16_writeU16 (value : UInt16) (rest : Bytes) :
    readU16 (writeU16 value ++ rest) = value := by
  apply UInt16.toBitVec_inj.mp
  have top : lowByte (value.toBitVec >>> 8) = value.toBitVec >>> 8 := by
    apply lowByte_of_small
    rw [BitVec.toNat_ushiftRight]
    omega
  have joined := byte_or_above ⟨value.toBitVec.setWidth 8⟩ (value.toBitVec >>> 8)
  change (lowByte (value.toBitVec >>> 8) <<< 8) ||| lowByte value.toBitVec = value.toBitVec
  rw [top, BitVec.or_comm]
  exact joined.trans (lowByte_xor_high _)

/-- A packet that was built is accepted, wherever it stands, as what it was built from. -/
theorem parsePacket_buildPacket {address zeros capacity : Nat} {sourcePort destinationPort : UInt16}
    {verificationTag : UInt32} {chunks packet : Bytes}
    (built : buildPacket address zeros sourcePort destinationPort verificationTag chunks capacity =
      .ok packet) (address' zeros' : Nat) :
    parsePacket address' zeros' packet =
      .ok ⟨sourcePort, destinationPort, verificationTag, chunks⟩ := by
  unfold buildPacket at built
  split at built
  · cases built
  · have finished := Except.ok.inj built
    -- The checksum does not depend on where its own field stands in the packet.
    have fields : writeU16 sourcePort ++ writeU16 destinationPort ++ writeU32 verificationTag ++
        writeCrc (crc32cPacket address zeros
          (writeCommonHeader sourcePort destinationPort verificationTag ++ chunks)) ++ chunks =
        packet := finished
    have whole : commonHeaderSize ≤
        (writeCommonHeader sourcePort destinationPort verificationTag ++ chunks).length := by
      rw [List.length_append]
      exact Nat.le_add_right _ _
    have long : commonHeaderSize ≤ packet.length := by
      rw [← fields, List.length_append]
      exact Nat.le_add_right _ _
    have checksum : crc32cPacket address' zeros' packet = crc32cPacket address zeros
        (writeCommonHeader sourcePort destinationPort verificationTag ++ chunks) := by
      rw [crc32cPacket_eq _ _ long, crc32cPacket_eq _ _ whole, ← fields]
      rfl
    have stored : readCrc (packet.drop 8) = crc32cPacket address zeros
        (writeCommonHeader sourcePort destinationPort verificationTag ++ chunks) := by
      rw [← fields]
      exact readCrc_writeCrc _ chunks
    unfold parsePacket
    rw [if_neg (by omega), if_neg (by rw [stored, checksum]; exact not_not_intro rfl), ← fields]
    have source := readU16_writeU16 sourcePort
    have destination := readU16_writeU16 destinationPort
    have tag := readU32_writeU32 verificationTag
    exact congrArg Except.ok (by
      rw [PacketView.mk.injEq]
      exact ⟨source _, destination _, tag _, rfl⟩)

/-- The check as it is defined: bit by bit, from all ones, and complemented. -/
def crc32cBitwise (data : Bytes) : BitVec 32 :=
  ~~~run castagnoli (BitVec.allOnes 32) data

/-- The sliced check is the bit-by-bit one over every split into pieces; a packet carries the check
of itself with zeros in place of the checksum; and so a packet that was built is accepted as what
it was built from. -/
theorem crc32c_exact_and_packets_accepted :
    (∀ (crc : BitVec 32) (pieces : List (Nat × Bytes)),
      pieces.foldl (fun crc piece => crc32cUpdate piece.1 crc piece.2) crc =
        run castagnoli crc (pieces.map Prod.snd).flatten) ∧
    (∀ (address : Nat) (data : Bytes), crc32c address data = crc32cBitwise data) ∧
    (∀ (address zeros : Nat) (packet : Bytes), commonHeaderSize ≤ packet.length →
      crc32cPacket address zeros packet =
        crc32cBitwise (packet.take 8 ++ [0, 0, 0, 0] ++ packet.drop 12)) ∧
    (∀ (address zeros capacity : Nat) (sourcePort destinationPort : UInt16)
      (verificationTag : UInt32) (chunks packet : Bytes),
      buildPacket address zeros sourcePort destinationPort verificationTag chunks capacity =
        .ok packet →
      ∀ address' zeros' : Nat, parsePacket address' zeros' packet =
        .ok ⟨sourcePort, destinationPort, verificationTag, chunks⟩) := by
  refine ⟨crc32cUpdate_pieces, fun address data => ?_, fun address zeros packet long => ?_,
    fun _ _ _ _ _ _ _ _ built => parsePacket_buildPacket built⟩
  · rw [crc32c, crc32cUpdate_eq, crc32cBitwise]
  · exact crc32cPacket_eq address zeros long

theorem crc32c_exact_and_packets_accepted_cookieAck :
    ∃ packet, buildPacket 0 0 5000 5001 7 [11, 0, 0, 4] 64 = .ok packet ∧
      parsePacket 2 3 packet = .ok ⟨5000, 5001, 7, [11, 0, 0, 4]⟩ := by
  have built : buildPacket 0 0 5000 5001 7 [11, 0, 0, 4] 64 = .ok (finishPacket 0 0
      (writeCommonHeader 5000 5001 7 ++ [11, 0, 0, 4])) := if_neg (by decide)
  exact ⟨_, built, crc32c_exact_and_packets_accepted.2.2.2 _ _ _ _ _ _ _ _ built 2 3⟩

/-- The published check value of `123456789`. -/
example : crc32c 1 [49, 50, 51, 52, 53, 54, 55, 56, 57] = 0xe3069283#32 := by decide +kernel

end Gizos.Sctp
