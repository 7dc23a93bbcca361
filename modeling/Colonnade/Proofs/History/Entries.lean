/-
Reading a log that commits have written. `Written rs bytes` says that the
bytes are the frames of these records, each as it is encoded, one after the
other. `entries` lists the records with the places where their frames start
and stop.

What reading such frames does is said apart from what comes after them:
reading goes through the entries, hands each to the visitor, and goes on
behind the last. So the same lemma serves a log that was cut somewhere and a
log that was damaged somewhere; only what lies behind the whole frames
differs.

Chain: `History.Cut` has the log that was cut, `History.Damaged` the one
that was damaged.
-/
import Colonnade.Proofs.History.Framed

namespace Colonnade

namespace Wire

/-- How long the frame of a record is. -/
def frameSize (r : CommitRecord) : Nat :=
  headerSize + (payloadBytes r).length + checksumSize

theorem frameSize_pos (r : CommitRecord) : 0 < frameSize r := by
  have hpos : 0 < headerSize := by decide
  unfold frameSize
  omega

/-- An encoded record is as long as its frame. -/
theorem length_of_encode {format : UInt16} {r : CommitRecord} {data : Bytes}
    (h : encode format r = .ok data) : data.length = frameSize r := by
  obtain ⟨-, -, rfl⟩ := encode_eq_ok.1 h
  unfold frame frameSize
  rw [length_closed, List.length_append, length_closed_headerBytes]

end Wire

namespace History

open Wire

-- ====================================================== what was written

/-- Bytes that are the frames of records, one after the other. -/
inductive Written : List CommitRecord → Bytes → Prop
  | nil : Written [] []
  | cons {r : CommitRecord} {rs : List CommitRecord} {data rest : Bytes}
      (hencode : encode newestFormat r = .ok data) (hrest : Written rs rest) :
      Written (r :: rs) (data ++ rest)

/-- Whether records name no negative object keys. -/
def KeysNonneg (rs : List CommitRecord) : Prop :=
  ∀ r ∈ rs, ∀ i ∈ r.instructions, i.KeysNonneg

/-- The frame of one more record at the end. -/
theorem Written.append {rs : List CommitRecord} {bytes : Bytes}
    {r : CommitRecord} {data : Bytes} (h : Written rs bytes)
    (hencode : encode newestFormat r = .ok data) :
    Written (rs ++ [r]) (bytes ++ data) := by
  induction h with
  | nil =>
      have hone : Written [r] (data ++ []) := .cons hencode .nil
      rwa [List.append_nil] at hone
  | cons hfirst _ ih =>
      rw [List.append_assoc]
      exact .cons hfirst ih

/-- What was written is framed, if its keys can be read. -/
theorem Written.framed {rs : List CommitRecord} {bytes : Bytes}
    (h : Written rs bytes) (hkeys : KeysNonneg rs) : Framed bytes rs := by
  induction h with
  | nil => exact .nil
  | cons hencode _ ih =>
      obtain ⟨hr, hrs⟩ := List.forall_mem_cons.1 hkeys
      exact .cons (isFrame_of_encode hr hencode) (ih hrs)

-- =========================================================== the entries

/-- A record with the places where its frame starts and stops. -/
structure Entry where
  start : Nat
  stop : Nat
  record : CommitRecord

/-- The entries of records whose frames start at an offset. -/
def entries (offset : Nat) : List CommitRecord → List Entry
  | [] => []
  | r :: rs =>
    ⟨offset, offset + frameSize r, r⟩ :: entries (offset + frameSize r) rs

theorem length_entries (offset : Nat) (rs : List CommitRecord) :
    (entries offset rs).length = rs.length := by
  induction rs generalizing offset with
  | nil => rfl
  | cons r rs ih => exact congrArg (· + 1) (ih _)

/-- Every frame stops behind the place where the first one starts. -/
theorem lt_stop {offset : Nat} {rs : List CommitRecord} {n : Entry}
    (h : n ∈ entries offset rs) : offset < n.stop := by
  induction rs generalizing offset with
  | nil => cases h
  | cons r rs ih =>
      have hpos := frameSize_pos r
      rcases List.mem_cons.1 h with rfl | h
      · show offset < offset + frameSize r
        omega
      · have := ih h
        omega

/-- The frame of each entry lies where the entry says. -/
theorem Written.located {rs : List CommitRecord} {bytes : Bytes}
    (h : Written rs bytes) (front : Bytes) {n : Entry}
    (hn : n ∈ entries front.length rs) :
    encode newestFormat n.record
      = .ok (((front ++ bytes).drop n.start).take (n.stop - n.start)) := by
  induction h generalizing front with
  | nil => cases hn
  | @cons r rs data rest hencode _ ih =>
      have hsize := length_of_encode hencode
      rcases List.mem_cons.1 hn with rfl | hn
      · dsimp only
        rw [List.drop_left, Nat.add_sub_cancel_left, ← hsize,
          List.take_left]
        exact hencode
      · have hlength : (front ++ data).length = front.length + frameSize r := by
          rw [List.length_append, hsize]
        rw [← hlength] at hn
        rw [← List.append_assoc]
        exact ih (front ++ data) hn

/-- No frame stops behind the bytes. -/
theorem Written.stop_le {rs : List CommitRecord} {bytes : Bytes}
    (h : Written rs bytes) {offset : Nat} {n : Entry}
    (hn : n ∈ entries offset rs) : n.stop ≤ offset + bytes.length := by
  induction h generalizing offset with
  | nil => cases hn
  | @cons r rs data rest hencode _ ih =>
      have hsize := length_of_encode hencode
      rw [List.length_append]
      rcases List.mem_cons.1 hn with rfl | hn
      · dsimp only
        omega
      · have := ih hn
        omega

/-- The frames stop where the bytes do. -/
theorem Written.stop_last {rs : List CommitRecord} {bytes : Bytes}
    (h : Written rs bytes) (offset : Nat) :
    ((entries offset rs).getLast?.map Entry.stop).getD offset
      = offset + bytes.length := by
  induction h generalizing offset with
  | nil => rfl
  | @cons r rs data rest hencode _ ih =>
      have hsize := length_of_encode hencode
      have hlast := ih (offset + frameSize r)
      rw [List.length_append, hsize, ← Nat.add_assoc, ← hlast]
      -- the last stop does not hang on what would be given for none
      cases rs with
      | nil => rfl
      | cons next rs =>
          simp only [entries, List.getLast?_cons]
          rfl

/-- The entries of records, and then those of more records. -/
theorem Written.entries_append {rs : List CommitRecord} {bytes : Bytes}
    (h : Written rs bytes) (others : List CommitRecord) (offset : Nat) :
    entries offset (rs ++ others)
      = entries offset rs ++ entries (offset + bytes.length) others := by
  induction h generalizing offset with
  | nil => rfl
  | @cons r rs data rest hencode _ ih =>
      have hsize := length_of_encode hencode
      rw [List.cons_append, entries, ih, entries, List.length_append, hsize,
        ← Nat.add_assoc]
      rfl

/-- Each byte lies in the frame of one record, behind those before it. -/
theorem Written.around {rs : List CommitRecord} {bytes : Bytes}
    (h : Written rs bytes) {p : Nat} (hp : p < bytes.length) :
    ∃ before r later whole data rest, rs = before ++ r :: later
      ∧ Written before whole ∧ encode newestFormat r = .ok data
      ∧ bytes = whole ++ (data ++ rest) ∧ whole.length ≤ p
      ∧ p < whole.length + data.length := by
  induction h generalizing p with
  | nil => exact absurd hp (Nat.not_lt_zero p)
  | @cons r rs data rest hencode _ ih =>
      by_cases hin : p < data.length
      · exact ⟨[], r, rs, [], data, rest, rfl, .nil, hencode, rfl,
          Nat.zero_le p, by rw [List.length_nil]; omega⟩
      · rw [List.length_append] at hp
        obtain ⟨before, r', later, whole, data', rest', rfl, hwritten,
          hencode', rfl, hle, hlt⟩ := ih (p := p - data.length) (by omega)
        refine ⟨r :: before, r', later, data ++ whole, data', rest', rfl,
          .cons hencode hwritten, hencode', (List.append_assoc ..).symm, ?_, ?_⟩
        · rw [List.length_append]
          omega
        · rw [List.length_append]
          omega

-- ==================================================== step by step

section Reading

variable {σ : Type} {store : Store} {visit : Nat → CommitRecord → Edit σ Unit}
  {offset : Nat} {done : Summary}

/-- A summary with some more records read. -/
def Summary.past (done : Summary) : List CommitRecord → Summary
  | [] => done
  | _ :: rs =>
    Summary.past
      { done with
        records := done.records + 1
        newestFormat := max done.newestFormat Wire.newestFormat } rs

/-- A frame is visited, and reading goes on behind it. -/
theorem readFrom_found {h : Header} {r : CommitRecord}
    (hin : offset < store.size)
    (hfound : frameAt? store offset = .ok (some (h, r))) :
    readFrom store visit offset done = (do
      visit offset r
      readFrom store visit (offset + h.frameLength)
        { done with
          records := done.records + 1
          newestFormat := max done.newestFormat h.format }) := by
  rw [readFrom, dif_pos hin, hfound]
  rfl

/-- Reading ends at the end of the store. -/
theorem readFrom_end (hout : store.size ≤ offset) :
    readFrom store visit offset done
      = pure { done with
          validLength := offset, tornTail := store.size - offset } := by
  rw [readFrom, dif_neg (Nat.not_lt.2 hout)]

/-- Reading ends at a torn tail. -/
theorem readFrom_torn (hin : offset < store.size)
    (hnone : frameAt? store offset = .ok none) :
    readFrom store visit offset done
      = pure { done with
          validLength := offset, tornTail := store.size - offset } := by
  rw [readFrom, dif_pos hin, hnone]
  rfl

/-- Reading fails at damage. -/
theorem readFrom_damaged {err : Error} (hin : offset < store.size)
    (herr : frameAt? store offset = .error err) :
    readFrom store visit offset done = throw err := by
  rw [readFrom, dif_pos hin, herr]
  rfl

/-- Reading goes through whole frames and on behind them. -/
theorem readFrom_written (hexact : store.Exact) {rs : List CommitRecord}
    {bytes rest : Bytes} (hwritten : Written rs bytes)
    (hkeys : KeysNonneg rs)
    (hdrop : store.bytes.drop offset = bytes ++ rest) :
    readFrom store visit offset done = (do
      (entries offset rs).forM fun n => visit n.start n.record
      readFrom store visit (offset + bytes.length) (done.past rs)) := by
  induction hwritten generalizing offset done with
  | nil => rfl
  | @cons r rs data others hencode hothers ih =>
      obtain ⟨hr, hrs⟩ := List.forall_mem_cons.1 hkeys
      have hsize := length_of_encode hencode
      have hframe := isFrame_of_encode hr hencode
      have hlength : data.length
          = (⟨newestFormat, (payloadBytes r).length⟩ : Header).frameLength :=
        hframe.length_eq
      rw [List.append_assoc] at hdrop
      have hfound := (frameAt?_eq_some hexact).2 ⟨data, _, hdrop, hframe⟩
      have hnext : store.bytes.drop (offset + data.length) = others ++ rest := by
        rw [← List.drop_drop, hdrop, List.drop_left]
      have hin : offset < store.size := by
        have hroom : data.length + (others ++ rest).length
            = store.bytes.length - offset := by
          rw [← List.length_append, ← hdrop, List.length_drop]
        have hpos := frameSize_pos r
        rw [hexact.size_eq]
        omega
      rw [readFrom_found hin hfound, ← hlength, ih hrs hnext, hsize,
        List.length_append, hsize, ← Nat.add_assoc, ← bind_assoc]
      rfl

end Reading

end History

end Colonnade
