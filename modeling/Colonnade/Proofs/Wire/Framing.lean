/-
Frames as the reader takes them. `IsFrame` collects what the reader checks
of the bytes of one record: the header with its own checksum, the length
that the header promises, the closing checksum, and the payload. It says
nothing about where the frame lies; an offset only ever shows in an error.

What `encode` writes in the format that the reader knows is such a frame,
and it holds the record that was written.

Chain: `History.Framed` cuts a log into frames.
-/
import Colonnade.Proofs.Edit
import Colonnade.Proofs.Wire.Reading
import Mathlib.Algebra.Group.Nat.Defs

namespace Colonnade.Wire

/-- Bytes that the reader takes for one whole record. -/
structure IsFrame (data : Bytes) (h : Header) (r : CommitRecord) : Prop where
  parse : Header.parse (data.take headerSize) = .ok h
  length_eq : data.length = h.frameLength
  decode : ∃ payload, verifyFrame 0 data = .ok payload
    ∧ decodePayload payload = .ok r

/-- The closing checksum is right or wrong wherever the frame lies. -/
theorem verifyFrame_eq_ok {m n : Nat} {bs payload : Bytes} :
    verifyFrame m bs = .ok payload ↔ verifyFrame n bs = .ok payload := by
  unfold verifyFrame
  dsimp only
  split
  · exact ⟨nofun, nofun⟩
  · exact Iff.rfl

-- ====================================================== what is written

/-- The value of so many bytes is below what does not fit them. -/
theorem leValue_lt (bs : Bytes) : leValue bs < 256 ^ bs.length := by
  induction bs with
  | nil => exact Nat.one_pos
  | cons b bs ih =>
      have hb := b.toNat_lt
      rw [leValue, List.length_cons, Nat.pow_succ]
      omega

/-- A word is read back from its bytes. -/
theorem leValue_u32Bytes (n : UInt32) :
    UInt32.ofNat (leValue (u32Bytes n)) = n := by
  unfold u32Bytes
  rw [leValue_leBytes, Nat.mod_eq_of_lt n.toNat_lt, UInt32.ofNat_toNat]

theorem length_u32Bytes (n : UInt32) : (u32Bytes n).length = 4 :=
  length_leBytes 4 n.toNat

theorem length_headerBytes (format : UInt16) (n : Nat) :
    (headerBytes format n).length = headerFields := by
  unfold headerBytes
  simp only [List.length_append, length_leBytes]
  rfl

theorem length_closed (bs : Bytes) :
    (closed bs).length = bs.length + checksumSize := by
  unfold closed
  rw [List.length_append, length_u32Bytes]
  rfl

theorem length_closed_headerBytes (format : UInt16) (n : Nat) :
    (closed (headerBytes format n)).length = headerSize := by
  rw [length_closed, length_headerBytes]
  rfl

/-- A header that was written passes its checksum and is then judged by its
format alone. -/
theorem parse_written {format : UInt16} {n : Nat} (hn : n ≤ maxCount) :
    Header.parse (closed (headerBytes format n))
      = if format == 0 || newestFormat < format
        then .error (.unsupportedFormat format) else .ok ⟨format, n⟩ := by
  have hlength := length_closed_headerBytes format n
  have hfields : (closed (headerBytes format n)).take headerFields
      = headerBytes format n :=
    List.take_left' (length_headerBytes format n)
  have hsum : ((closed (headerBytes format n)).drop headerFields).take 4
      = u32Bytes (crc32 (headerBytes format n)) := by
    unfold closed
    rw [List.drop_left' (length_headerBytes format n)]
    exact List.take_of_length_le (Nat.le_of_eq (length_u32Bytes _))
  have hmagic : (closed (headerBytes format n)).take 4 = magic := rfl
  have hformat : ((closed (headerBytes format n)).drop 4).take 2
      = leBytes 2 format.toNat := rfl
  have hkind : ((closed (headerBytes format n)).drop 6).take 1
      = [RecordType.commit.byte] := rfl
  have hcount : ((closed (headerBytes format n)).drop 7).take 4
      = leBytes 4 n := rfl
  have hvalue : leValue (leBytes 4 n) = n := by
    rw [leValue_leBytes]
    exact Nat.mod_eq_of_lt (Nat.lt_succ_of_le hn)
  have hstamp : UInt16.ofNat (leValue (leBytes 2 format.toNat)) = format := by
    rw [leValue_leBytes, Nat.mod_eq_of_lt format.toNat_lt,
      UInt16.ofNat_toNat]
  unfold Header.parse
  rw [hlength, hmagic, hsum, leValue_u32Bytes, hfields, hformat, hstamp,
    hkind, hcount, hvalue]
  simp
  rfl

/-- The header of a frame in the known format is read as it was written. -/
theorem parse_headerBytes {n : Nat} (hn : n ≤ maxCount) :
    Header.parse (closed (headerBytes newestFormat n))
      = .ok ⟨newestFormat, n⟩ :=
  parse_written hn

/-- In any other format it is refused. -/
theorem parse_headerBytes_of_ne {format : UInt16}
    (hne : format ≠ newestFormat) {n : Nat} (hn : n ≤ maxCount) :
    Header.parse (closed (headerBytes format n))
      = .error (.unsupportedFormat format) := by
  have hout : (format == 0 || decide (newestFormat < format)) = true := by
    rw [Bool.or_eq_true_iff, beq_iff_eq, decide_eq_true_eq,
      UInt16.lt_iff_toNat_lt]
    have hone : format.toNat ≠ newestFormat.toNat :=
      fun heq => hne (UInt16.toNat_inj.1 heq)
    have hnewest : newestFormat.toNat = 1 := rfl
    by_cases hzero : format.toNat = 0
    · exact .inl (UInt16.toNat_inj.1 hzero)
    · exact .inr (by omega)
  rw [parse_written hn, if_pos hout]

/-- The closing checksum of a frame is right, and the payload comes back. -/
theorem verifyFrame_frame (format : UInt16) (payload : Bytes) :
    verifyFrame 0 (frame format payload) = .ok payload := by
  have hlength : (frame format payload).length - checksumSize
      = (closed (headerBytes format payload.length) ++ payload).length := by
    unfold frame
    rw [length_closed]
    exact Nat.add_sub_cancel ..
  have hbody : (frame format payload).take
        ((frame format payload).length - checksumSize)
      = closed (headerBytes format payload.length) ++ payload := by
    rw [hlength]
    exact List.take_left
  have hsum : (frame format payload).drop
        ((frame format payload).length - checksumSize)
      = u32Bytes (crc32 (closed (headerBytes format payload.length)
          ++ payload)) := by
    rw [hlength]
    exact List.drop_left
  unfold verifyFrame
  rw [hbody, hsum, leValue_u32Bytes]
  simp only [bne_self_eq_false, Bool.false_eq_true, if_false]
  rw [List.drop_left' (length_closed_headerBytes format payload.length)]

/-- A record is encoded if its counts fit their words. -/
theorem encode_eq_ok {format : UInt16} {r : CommitRecord} {data : Bytes} :
    encode format r = .ok data
      ↔ r.instructions.length ≤ maxCount
        ∧ (payloadBytes r).length ≤ maxCount
        ∧ frame format (payloadBytes r) = data := by
  simp only [encode, Check.throw_bind, Check.guard_eq_ok,
    Check.pure_eq_ok, Nat.not_lt]

/-- A record written in the known format is read as it was written, unless
it holds a negative object key. -/
theorem isFrame_of_encode {r : CommitRecord} {data : Bytes}
    (hkeys : ∀ i ∈ r.instructions, i.KeysNonneg)
    (h : encode newestFormat r = .ok data) :
    IsFrame data ⟨newestFormat, (payloadBytes r).length⟩ r := by
  obtain ⟨hcount, hlength, rfl⟩ := encode_eq_ok.1 h
  constructor
  · have htake : (frame newestFormat (payloadBytes r)).take headerSize
        = closed (headerBytes newestFormat (payloadBytes r).length) := by
      have hlen := length_closed_headerBytes newestFormat
        (payloadBytes r).length
      unfold frame
      rw [show ∀ bs, closed bs = bs ++ u32Bytes (crc32 bs) from fun _ => rfl,
        List.append_assoc]
      exact List.take_left' hlen
    rw [htake]
    exact parse_headerBytes hlength
  · unfold frame Header.frameLength
    rw [length_closed, List.length_append, length_closed_headerBytes]
  · exact ⟨payloadBytes r, verifyFrame_frame newestFormat (payloadBytes r),
      decodePayload_payloadBytes hkeys hcount hlength⟩

end Colonnade.Wire
