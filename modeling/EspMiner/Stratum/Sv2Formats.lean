import EspMiner.Library.Codec
import EspMiner.Stratum.Sv2Messages

/-!
# The formats of Stratum V2

The messages of the protocol as codecs over its field types, independent of the code
that builds and parses them.
-/

namespace EspMiner

open Library

namespace Sv2Format

/-! ## Field types -/

def u8 : Codec U8 := .byte
def u16 : Codec U16 := .word 16 2 rfl
def u32 : Codec U32 := .word 32 4 rfl
def u64 : Codec U64 := .word 64 8 rfl
def u256 : Codec (Vector U8 32) := .fixed 32
def str0255 : Codec (List U8) := .counted 255 (by decide)
def b032 : Codec (List U8) := .counted 32 (by decide)

/-- What a STR0_255 takes of a string, which may be `NULL`. -/
def cut (str : Option (List U8)) : List U8 := (str.getD []).take 255

theorem length_cut_le (str : Option (List U8)) : (cut str).length ≤ 255 := by
  rw [cut, List.length_take]
  exact Nat.min_le_left _ _

/-! ## Messages of the client -/

/-- SetupConnection -/
structure SetupConnection where
  protocol : U8
  minVersion : U16
  maxVersion : U16
  flags : U32
  endpointHost : List U8
  endpointPort : U16
  vendor : List U8
  hardwareVersion : List U8
  firmware : List U8
  deviceId : List U8

def setupConnection : Codec SetupConnection :=
  (u8.seq <| u16.seq <| u16.seq <| u32.seq <| str0255.seq <| u16.seq <| str0255.seq <|
    str0255.seq <| str0255.seq str0255).record
    (fun x => ⟨x.1, x.2.1, x.2.2.1, x.2.2.2.1, x.2.2.2.2.1, x.2.2.2.2.2.1, x.2.2.2.2.2.2.1,
      x.2.2.2.2.2.2.2.1, x.2.2.2.2.2.2.2.2.1, x.2.2.2.2.2.2.2.2.2⟩)
    (fun m => (m.protocol, m.minVersion, m.maxVersion, m.flags, m.endpointHost, m.endpointPort,
      m.vendor, m.hardwareVersion, m.firmware, m.deviceId))
    fun _ => rfl

/-- OpenStandardMiningChannel -/
structure OpenStandardMiningChannel where
  requestId : U32
  userIdentity : List U8
  nominalHashRate : U32
  maxTarget : Vector U8 32

def openStandardMiningChannel : Codec OpenStandardMiningChannel :=
  (u32.seq <| str0255.seq <| u32.seq u256).record
    (fun x => ⟨x.1, x.2.1, x.2.2.1, x.2.2.2⟩)
    (fun m => (m.requestId, m.userIdentity, m.nominalHashRate, m.maxTarget))
    fun _ => rfl

/-- OpenExtendedMiningChannel -/
structure OpenExtendedMiningChannel extends OpenStandardMiningChannel where
  minExtranonceSize : U16

def openExtendedMiningChannel : Codec OpenExtendedMiningChannel :=
  (openStandardMiningChannel.seq u16).record (fun x => ⟨x.1, x.2⟩)
    (fun m => (m.toOpenStandardMiningChannel, m.minExtranonceSize)) fun _ => rfl

/-- SubmitSharesStandard -/
structure SubmitShares where
  channelId : U32
  sequenceNumber : U32
  jobId : U32
  nonce : U32
  ntime : U32
  version : U32

def submitSharesStandard : Codec SubmitShares :=
  (u32.seq <| u32.seq <| u32.seq <| u32.seq <| u32.seq u32).record
    (fun x => ⟨x.1, x.2.1, x.2.2.1, x.2.2.2.1, x.2.2.2.2.1, x.2.2.2.2.2⟩)
    (fun m => (m.channelId, m.sequenceNumber, m.jobId, m.nonce, m.ntime, m.version))
    fun _ => rfl

/-- SubmitSharesExtended: the extranonce behind the share. -/
def submitSharesExtended : Codec (SubmitShares × List U8) :=
  submitSharesStandard.seq str0255

/-! ## Messages of the pool -/

def setupConnectionSuccess : Codec Sv2SetupConnectionSuccess :=
  (u16.seq u32).record (fun x => ⟨x.1, x.2⟩) (fun m => (m.usedVersion, m.flags)) fun _ => rfl

def openChannelSuccess : Codec Sv2OpenChannelSuccess :=
  (u32.seq <| u32.seq <| u256.seq <| b032.seq u32).record
    (fun x => ⟨x.1, x.2.1, x.2.2.1, x.2.2.2.1, x.2.2.2.2⟩)
    (fun m => (m.requestId, m.channelId, m.target, m.extranoncePrefix, m.groupChannelId))
    fun _ => rfl

/-- The whole extranonce has 32 bytes at most, and the pool leaves two of them at least. -/
def openExtendedChannelSuccess : Codec Sv2OpenExtendedChannelSuccess :=
  ((u32.seq <| u32.seq <| u256.seq <| u16.seq <| b032.seq u32).record
    (fun x => ⟨x.1, x.2.1, x.2.2.1, x.2.2.2.1, x.2.2.2.2.1, x.2.2.2.2.2⟩)
    (fun m => (m.requestId, m.channelId, m.target, m.extranonceSize, m.extranoncePrefix,
      m.groupChannelId))
    fun _ => rfl).restrict fun m =>
      2 ≤ m.extranonceSize.toNat ∧ m.extranoncePrefix.length + m.extranonceSize.toNat ≤ 32

def newMiningJob : Codec Sv2NewMiningJob :=
  (u32.seq <| u32.seq <| u32.optional.seq <| u32.seq u256).record
    (fun x => ⟨x.1, x.2.1, x.2.2.1, x.2.2.2.1, x.2.2.2.2⟩)
    (fun m => (m.channelId, m.jobId, m.minNtime, m.version, m.merkleRoot)) fun _ => rfl

def setNewPrevHash : Codec Sv2SetNewPrevHash :=
  (u32.seq <| u32.seq <| u256.seq <| u32.seq u32).record
    (fun x => ⟨x.1, x.2.1, x.2.2.1, x.2.2.2.1, x.2.2.2.2⟩)
    (fun m => (m.channelId, m.jobId, m.prevHash, m.minNtime, m.nbits)) fun _ => rfl

def setTarget : Codec Sv2SetTarget :=
  (u32.seq u256).record (fun x => ⟨x.1, x.2⟩) (fun m => (m.channelId, m.maxTarget)) fun _ => rfl

/-- SubmitShares.Success: the numbers that are read, and the sum of the shares. -/
def submitSharesSuccess : Codec (Sv2SubmitSharesSuccess × U64) :=
  (u32.seq <| u32.seq <| u32.seq u64).record
    (fun x => (⟨x.1, x.2.1, x.2.2.1⟩, x.2.2.2))
    (fun m => (m.1.channelId, m.1.lastSequenceNumber, m.1.acceptedCount, m.2)) fun _ => rfl

def submitSharesError : Codec Sv2SubmitSharesError :=
  (u32.seq <| u32.seq str0255).record (fun x => ⟨x.1, x.2.1, x.2.2⟩)
    (fun m => (m.channelId, m.seqNum, m.errorCode)) fun _ => rfl

end Sv2Format

end EspMiner
