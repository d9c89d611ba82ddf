import FlashHost.Protocol.Download
import FlashHost.Proofs.Text.Numeral
import FlashHost.Proofs.Wire.Plan

/-!
# Parcels of a payload

The bytes in which a payload is announced and cut up on its way out are those that the
wire plan lays down.
-/

set_option autoImplicit false

namespace FlashHost

/-- From one boundary of pieces on, the pieces of some bytes are their numbered slices. -/
theorem piecesFrom_eq_map {size : Nat} (positive : 0 < size) (data : ByteArray) (first : Nat) :
    piecesFrom size data (first * size) =
      (List.range' first ((size - 1 + data.size) / size - first)).map fun number =>
        data.extract (number * size) ((number + 1) * size) := by
  generalize remaining : (size - 1 + data.size) / size - first = left
  induction left generalizing first with
  | zero =>
      have finished : (size - 1 + data.size) / size ≤ first := by omega
      have beyond := (Nat.div_le_iff_le_mul_add_pred positive).mp finished
      rw [Nat.mul_comm] at beyond
      rw [piecesFrom, if_neg (by omega)]
      rfl
  | succ left ih =>
      have unfinished : first < (size - 1 + data.size) / size := by omega
      have within := (Nat.lt_div_iff_mul_lt positive).mp unfinished
      rw [piecesFrom, if_pos ⟨positive, by omega⟩, ← Nat.succ_mul, Nat.succ_eq_add_one,
        ih (first + 1) (by omega)]
      simp [List.range'_succ]

theorem Parcel.map_bytes_pieces (payload : ByteArray) :
    (Parcel.pieces payload).map Parcel.bytes = FlashHost.pieces Protocol.pieceSize payload := by
  have slices : piecesFrom (2 ^ 20) payload (0 * 2 ^ 20) = _ :=
    piecesFrom_eq_map (by decide) payload 0
  rw [Nat.zero_mul, Nat.sub_zero, ← List.range_eq_range'] at slices
  rw [Parcel.pieces, List.map_map]
  exact slices.symm

/-- Only the last piece of a payload may be short. -/
theorem Parcel.size_piece {payload : ByteArray} {number : Nat}
    (more : number + 1 < count payload) : (piece payload number).bytes.size = 2 ^ 20 := by
  have within : (number + 1) * 2 ^ 20 < payload.size := by
    have bound := (Nat.lt_div_iff_mul_lt (by decide)).mp more
    omega
  rw [bytes, ByteArray.size_extract]
  omega

/-- A payload that may be sent is announced with its size in eight digits. -/
theorem Parcel.bytes_announcement {payload : ByteArray} (small : payload.size < 2 ^ 32) :
    (Parcel.announcement payload).bytes = (Protocol.downloadCommand payload.size).toUTF8 := by
  have digits : Numeral.fixed 16 8 payload.size =
      (Nat.toDigits 16 payload.size).leftpad 8 '0' :=
    Numeral.fixed_eq_leftpad (by decide) small
  rw [Parcel.bytes, Protocol.downloadCommand, Numeral.hex, digits]

example : (Parcel.announcement ⟨#[1, 2]⟩).bytes = "download:00000002".toUTF8 := by rfl

@[simp] theorem Protocol.utf8ByteSize_downloadCommand (size : Nat) :
    (downloadCommand size).utf8ByteSize = 17 := by
  rw [downloadCommand, String.utf8ByteSize_append, Numeral.utf8ByteSize_hex]
  rfl

theorem Parcel.Allowed.size_le {parcel : Parcel} (allowed : parcel.Allowed)
    (command : parcel.IsCommand) : parcel.bytes.size ≤ 64 := by
  cases parcel with
  | command line => exact allowed
  | announcement payload =>
      rw [Parcel.bytes_announcement allowed]
      have size := Protocol.utf8ByteSize_downloadCommand payload.size
      rw [← String.size_toByteArray] at size
      simp [size]
  | piece payload number => cases command

end FlashHost
