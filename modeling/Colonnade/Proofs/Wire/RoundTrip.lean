/-
The round trip of a record. What `encode` writes in the format that the
reader knows goes through every check that the reader makes, in the order
in which it makes them: the header parses and promises the length that the
frame has, the closing checksum is right wherever the frame lies, and the
payload is read to its last byte as the record that was written. Numbers in
floating point are patterns here, so nothing is lost of them either.

The one premise is that no object key of the record is negative, as keys
and links in use never are. Nothing is asked of the sizes of texts, lists or
indices: a record is refused only when one of its two counts does not fit
its field, and nothing that was written can be too large to be read.

Chain: `Wire.Framing` has the parts. What is proved here is for a whole
record; the proofs about logs go through `IsFrame`, which says less.
-/
import Colonnade.Proofs.Wire.Framing
import Mathlib.Algebra.Group.Nat.Defs

namespace Colonnade.Wire

-- ============================================================ headers

/-- A header is read off the front of whatever it stands before. -/
theorem Header.parse_take {bs : Bytes} (h : headerSize ≤ bs.length) :
    Header.parse (bs.take headerSize) = Header.parse bs := by
  have hlength : (bs.take headerSize).length = headerSize :=
    List.length_take_of_le h
  have hfront {n : Nat} (hn : n ≤ headerSize) :
      (bs.take headerSize).take n = bs.take n := by
    rw [List.take_take, Nat.min_eq_left hn]
  have hmiddle {m n : Nat} (hn : m + n ≤ headerSize) :
      ((bs.take headerSize).drop m).take n = (bs.drop m).take n := by
    rw [List.drop_take, List.take_take, Nat.min_eq_left (by omega)]
  unfold Header.parse
  rw [hlength, hfront (n := 4) (by decide), hmiddle (m := headerFields)
    (n := 4) (by decide), hfront (n := headerFields) (by decide),
    hmiddle (m := 4) (n := 2) (by decide),
    hmiddle (m := 6) (n := 1) (by decide),
    hmiddle (m := 7) (n := 4) (by decide)]
  have hshort : ¬ bs.length < headerSize := Nat.not_lt.2 h
  simp only [Nat.lt_irrefl, hshort]

/-- Of a whole frame the header says how long the frame is. -/
theorem IsFrame.parse_whole {data : Bytes} {h : Header} {r : CommitRecord}
    (hframe : IsFrame data h r) : Header.parse data = .ok h := by
  have hlong : headerSize ≤ data.length := by
    rw [hframe.length_eq]
    unfold Header.frameLength
    omega
  rw [← Header.parse_take hlong]
  exact hframe.parse

-- ============================================================ refusals

/-- Whatever the format, a record is refused only for having too many
instructions or a payload that is too long. -/
theorem encode_eq_error_iff {format : UInt16} {r : CommitRecord} :
    (∃ err, encode format r = .error err)
      ↔ 2 ^ 32 ≤ r.instructions.length ∨ 2 ^ 32 ≤ (payloadBytes r).length := by
  have hok : (∃ data, encode format r = .ok data)
      ↔ r.instructions.length ≤ maxCount
        ∧ (payloadBytes r).length ≤ maxCount := by
    constructor
    · rintro ⟨data, hdata⟩
      obtain ⟨hcount, hlength, -⟩ := encode_eq_ok.1 hdata
      exact ⟨hcount, hlength⟩
    · rintro ⟨hcount, hlength⟩
      exact ⟨_, encode_eq_ok.2 ⟨hcount, hlength, rfl⟩⟩
  have hmax : maxCount + 1 = 2 ^ 32 := by decide
  cases hout : encode format r with
  | ok data =>
      have := hok.1 ⟨data, hout⟩
      exact ⟨nofun, by omega⟩
  | error err =>
      refine ⟨fun _ => ?_, fun _ => ⟨err, rfl⟩⟩
      by_contra hsmall
      obtain ⟨data, hdata⟩ := hok.2 ⟨by omega, by omega⟩
      rw [hout] at hdata
      cases hdata

-- ====================================================== the round trip

/-- A record without negative object keys that is written in the known
format is read back: the header is accepted and promises the length of the
frame, the closing checksum is accepted wherever the frame lies, and the
payload is decoded to the record, with no bytes left over. A record is
refused exactly if it has 2^32 instructions or more, or a payload of 2^32
bytes or more. -/
theorem encode_round_trip {r : CommitRecord}
    (hkeys : ∀ i ∈ r.instructions, i.KeysNonneg) :
    (∀ data, encode newestFormat r = .ok data →
      (∃ h, Header.parse data = .ok h ∧ h.format = newestFormat
        ∧ h.frameLength = data.length)
      ∧ ∃ payload, (∀ offset, verifyFrame offset data = .ok payload)
        ∧ Reader.record.run payload = .ok (r, [])
        ∧ decodePayload payload = .ok r)
    ∧ ((∃ err, encode newestFormat r = .error err)
      ↔ 2 ^ 32 ≤ r.instructions.length
        ∨ 2 ^ 32 ≤ (payloadBytes r).length) := by
  refine ⟨fun data hdata => ⟨?_, ?_⟩, encode_eq_error_iff⟩
  · have hframe := isFrame_of_encode hkeys hdata
    exact ⟨_, hframe.parse_whole, rfl, hframe.length_eq.symm⟩
  · obtain ⟨hcount, hlength, rfl⟩ := encode_eq_ok.1 hdata
    refine ⟨payloadBytes r, fun offset => ?_,
      run_record_payloadBytes hkeys hcount hlength,
      decodePayload_payloadBytes hkeys hcount hlength⟩
    exact verifyFrame_eq_ok.1 (verifyFrame_frame newestFormat _)

/-- A record with an instruction of every kind, a declaration with a target
and one without, and values that are easy to lose: absence, a NaN with a
payload, the negative zero, parts of a timestamp below zero. -/
def everyKind : CommitRecord :=
  ⟨⟨0xFFFFFFFFFFFFFFFF⟩,
    [.addTable ⟨7⟩ "größe", .addColumn ⟨7⟩ ⟨-1⟩ (.linkList "l" ⟨9⟩),
      .addColumn ⟨7⟩ ⟨0⟩ (.make "n" .linkList true false),
      .createObject ⟨7⟩ ⟨0x7FFFFFFFFFFFFFFF⟩,
      .set ⟨7⟩ ⟨0⟩ ⟨1⟩ .null,
      .set ⟨7⟩ ⟨0⟩ ⟨2⟩ (.float ⟨0x7FC00001⟩),
      .listInsert ⟨7⟩ ⟨0⟩ ⟨3⟩ 0xFFFFFFFFFFFFFFFF
        (.double ⟨0x8000000000000000⟩),
      .listSet ⟨7⟩ ⟨0⟩ ⟨4⟩ 0 (.timestamp ⟨-1, -500000000, by decide⟩),
      .set ⟨7⟩ ⟨0⟩ ⟨5⟩ (.link ⟨3⟩), .set ⟨7⟩ ⟨0⟩ ⟨6⟩ (.binary [0, 255]),
      .listRemove ⟨7⟩ ⟨0⟩ ⟨4⟩ 0, .listClear ⟨7⟩ ⟨0⟩ ⟨3⟩,
      .removeObject ⟨7⟩ ⟨0⟩, .removeColumn ⟨7⟩ ⟨-1⟩, .removeTable ⟨7⟩]⟩

theorem encode_round_trip_everyKind :
    (∀ i ∈ everyKind.instructions, i.KeysNonneg)
      ∧ ∃ data, encode newestFormat everyKind = .ok data
        ∧ (∃ h, Header.parse data = .ok h ∧ h.frameLength = data.length)
        ∧ ∃ payload, verifyFrame 0 data = .ok payload
          ∧ Reader.record.run payload = .ok (everyKind, [])
          ∧ decodePayload payload = .ok everyKind := by
  have hkeys : ∀ i ∈ everyKind.instructions, i.KeysNonneg := by decide
  have hdata : encode newestFormat everyKind
      = .ok (frame newestFormat (payloadBytes everyKind)) :=
    encode_eq_ok.2 ⟨by decide, by decide +kernel, rfl⟩
  obtain ⟨⟨h, hparse, -, hlength⟩, payload, hverify, hread, hdecode⟩ :=
    (encode_round_trip hkeys).1 _ hdata
  exact ⟨hkeys, _, hdata, ⟨h, hparse, hlength⟩, payload, hverify 0, hread,
    hdecode⟩

end Colonnade.Wire
