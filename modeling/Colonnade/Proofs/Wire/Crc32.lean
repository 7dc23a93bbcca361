/-
The check separates messages that differ in one byte. A shift of the register
can be undone: the polynomial has its top bit set and a register that was
only moved down has not, so the top bit after the shift is the low bit that
was lost. Hence taking in a byte is injective, in the register and in the
byte. Two messages that differ in one byte have different registers behind
it, and the bytes after it, being the same, keep them apart.

`crc32_of_damaged` puts this to use: of bytes that are closed by their own
check, the check fails once any one byte is changed, be it in what is checked
or in the check itself.

Chain: `History.Damaged` finds headers and frames damaged by it.
-/
import Colonnade.Proofs.Wire.Framing

namespace Colonnade.Wire

-- ============================================================ one shift

theorem low_bit (r : UInt32) : (r &&& 1 == 1) = r.toBitVec.getLsbD 0 := by
  have hmask : (r &&& 1).toBitVec
      = BitVec.setWidth 32 (BitVec.ofBool (r.toBitVec.getLsbD 0)) := by
    rw [UInt32.toBitVec_and]
    exact BitVec.and_one_eq_setWidth_ofBool_getLsbD
  cases hbit : r.toBitVec.getLsbD 0 with
  | true =>
      rw [hbit] at hmask
      have heq : r &&& 1 = 1 := UInt32.toBitVec_inj.1 hmask
      rw [heq]
      rfl
  | false =>
      rw [hbit] at hmask
      have heq : r &&& 1 = 0 := UInt32.toBitVec_inj.1 hmask
      rw [heq]
      rfl

/-- The low bit of the register comes out on top. -/
theorem top_crcShift (r : UInt32) :
    (crcShift r).toBitVec.getLsbD 31 = r.toBitVec.getLsbD 0 := by
  have hmoved : (r >>> 1).toBitVec.getLsbD 31 = false := by
    rw [UInt32.toBitVec_shiftRight]
    simp
  have htop : crcPolynomial.toBitVec.getLsbD 31 = true := by decide
  unfold crcShift
  rw [low_bit]
  cases hbit : r.toBitVec.getLsbD 0 with
  | true =>
      rw [if_pos rfl, UInt32.toBitVec_xor, BitVec.getLsbD_xor, hmoved, htop]
      rfl
  | false =>
      rw [if_neg Bool.false_ne_true]
      exact hmoved

/-- A shift can be undone. -/
theorem crcShift_injective : Function.Injective crcShift := by
  intro a b h
  have hlow : a.toBitVec.getLsbD 0 = b.toBitVec.getLsbD 0 := by
    rw [← top_crcShift, ← top_crcShift, h]
  have hrest : a >>> 1 = b >>> 1 := by
    unfold crcShift at h
    rw [low_bit, low_bit, hlow] at h
    split at h
    · exact (UInt32.xor_left_inj _).1 h
    · exact h
  have hrest := congrArg UInt32.toBitVec hrest
  rw [UInt32.toBitVec_shiftRight, UInt32.toBitVec_shiftRight] at hrest
  refine UInt32.toBitVec_inj.1 (BitVec.eq_of_getLsbD_eq fun i hi => ?_)
  cases i with
  | zero => exact hlow
  | succ i =>
      have hbit := congrArg (fun v => v.getLsbD i) hrest
      simpa [Nat.add_comm] using hbit

-- ============================================================ one byte

theorem repeat_injective {α : Type} {f : α → α} (hf : Function.Injective f)
    (n : Nat) : Function.Injective (Nat.repeat f n) := by
  induction n with
  | zero => exact fun _ _ h => h
  | succ n ih => exact fun _ _ h => ih (hf h)

/-- Different registers stay different behind a byte. -/
theorem crcByte_left_injective (b : UInt8) :
    Function.Injective fun r => crcByte r b := by
  intro q r h
  exact (UInt32.xor_left_inj _).1 (repeat_injective crcShift_injective 8 h)

/-- Different bytes lead to different registers. -/
theorem crcByte_injective (r : UInt32) : Function.Injective (crcByte r) := by
  intro b c h
  have hword := (UInt32.xor_right_inj _).1
    (repeat_injective crcShift_injective 8 h)
  have hnat := congrArg UInt32.toNat hword
  rw [UInt8.toNat_toUInt32, UInt8.toNat_toUInt32] at hnat
  exact UInt8.toNat_inj.1 hnat

/-- Different registers stay different behind any bytes. -/
theorem foldl_crcByte_injective (bs : Bytes) :
    Function.Injective fun r => bs.foldl crcByte r := by
  induction bs with
  | nil => exact fun _ _ h => h
  | cons b bs ih => exact fun _ _ h => crcByte_left_injective b (ih h)

-- ========================================================= one message

/-- Messages that differ in one byte have different checks. -/
theorem crc32_ne (front back : Bytes) {b c : UInt8} (hne : b ≠ c) :
    crc32 (front ++ b :: back) ≠ crc32 (front ++ c :: back) := by
  intro h
  have hfold := (UInt32.xor_left_inj _).1 h
  rw [List.foldl_append, List.foldl_append] at hfold
  exact hne (crcByte_injective _ (foldl_crcByte_injective back hfold))

/-- One byte that is changed changes the checksum. -/
theorem crc32_set_ne {bs : Bytes} {p : Nat} (hp : p < bs.length) {b : UInt8}
    (hb : bs[p]? ≠ some b) : crc32 (bs.set p b) ≠ crc32 bs := by
  have hset : bs.set p b = bs.take p ++ b :: bs.drop (p + 1) :=
    List.set_eq_take_append_cons_drop.trans (if_pos hp)
  have hsplit : bs = bs.take p ++ bs[p] :: bs.drop (p + 1) := by
    rw [List.getElem_cons_drop, List.take_append_drop]
  have hne : b ≠ bs[p] := by
    rintro rfl
    exact hb (List.getElem?_eq_getElem hp)
  intro h
  rw [hset] at h
  exact crc32_ne _ _ hne (h.trans (congrArg crc32 hsplit))

-- ======================================================= closed messages

/-- Four bytes are those of the number they spell. -/
theorem u32Bytes_leValue {bs : Bytes} (h : bs.length = 4) :
    u32Bytes (UInt32.ofNat (leValue bs)) = bs := by
  have hlt : leValue bs < 2 ^ 32 := by
    have hlt := leValue_lt bs
    rw [h] at hlt
    exact hlt
  have hbytes := leBytes_leValue bs
  rw [h] at hbytes
  unfold u32Bytes
  rw [UInt32.toNat_ofNat', Nat.mod_eq_of_lt hlt]
  exact hbytes

/-- If one byte of a closed message is another, its check does not hold. -/
theorem crc32_of_damaged {bs : Bytes} {p : Nat}
    (hp : p < (closed bs).length) {b : UInt8} (hb : (closed bs)[p]? ≠ some b) :
    UInt32.ofNat (leValue (((closed bs).set p b).drop bs.length))
      ≠ crc32 (((closed bs).set p b).take bs.length) := by
  unfold closed at hp hb ⊢
  by_cases hbody : p < bs.length
  · rw [List.getElem?_append_left hbody] at hb
    have hlength : (bs.set p b).length = bs.length := List.length_set
    rw [List.set_append_left _ _ hbody, ← hlength, List.drop_left,
      List.take_left, leValue_u32Bytes]
    exact (crc32_set_ne hbody hb).symm
  · have hle : bs.length ≤ p := Nat.not_lt.1 hbody
    rw [List.getElem?_append_right hle] at hb
    rw [List.set_append_right _ _ hle, List.drop_left, List.take_left]
    intro h
    -- the check that is stored now would be the one that was stored
    have hbytes := congrArg u32Bytes h
    rw [u32Bytes_leValue (by rw [List.length_set, length_u32Bytes])] at hbytes
    apply hb
    rw [← hbytes, List.getElem?_set_self]
    rw [List.length_append] at hp
    omega

end Colonnade.Wire
