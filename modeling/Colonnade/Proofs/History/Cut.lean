/-
A log that was cut. Wherever the cut falls, in the header of a frame, in its
payload, in its checksum or between two frames, what is left is the frames
that were whole before the cut and less than all of the next one
(`Written.cut`). The reader takes the rest for the torn end of an append that
never finished (`frameAt?_torn`): a header that is there at all is whole and
says how much is missing, so nothing is ever decoded from it.

The checksum plays no part in this. A cut changes no byte, so whatever
function it were, the frames before the cut would still carry theirs.

Chain: `Engine.Crash` opens such logs.
-/
import Colonnade.Proofs.History.Entries

namespace Colonnade.History

open Wire

-- ============================================================ the tail

/-- What a cut leaves of the frame it falls into, if anything. -/
def Torn (tail : Bytes) : Prop :=
  tail = [] ∨ ∃ r data n, (∀ i ∈ r.instructions, Instruction.KeysNonneg i)
    ∧ encode newestFormat r = .ok data ∧ n < data.length
    ∧ tail = data.take n

section Reading

variable {σ : Type} {store : Store} {visit : Nat → CommitRecord → Edit σ Unit}
  {offset : Nat} {done : Summary}

/-- Of a frame that is broken off the reader makes nothing. -/
theorem frameAt?_torn (hexact : store.Exact) {data : Bytes} {h : Header}
    {r : CommitRecord} (hframe : IsFrame data h r) {n : Nat}
    (hn : n < data.length) (hdrop : store.bytes.drop offset = data.take n) :
    frameAt? store offset = .ok none := by
  have hhead := headerSize_le h
  have hpos : 0 < headerSize := by decide
  have hlength := hframe.length_eq
  have hleft : store.bytes.length - offset = n := by
    rw [← List.length_drop, hdrop, List.length_take]
    omega
  unfold frameAt?
  dsimp only
  rw [hexact.size_eq, hleft]
  by_cases hshort : n < headerSize
  · rw [if_pos hshort]
    rfl
  · -- the header is whole, and the length it promises is not there
    have hread : store.readAt offset headerSize
        = .ok (data.take headerSize) := by
      rw [hexact.readAt_eq (by omega), hdrop, List.take_take,
        Nat.min_eq_left (by omega)]
    rw [if_neg hshort, hread]
    show (ofRecord offset (Header.parse (data.take headerSize)) >>= _) = _
    rw [hframe.parse]
    show (if n < h.frameLength then _ else _) = _
    rw [if_pos (by omega)]
    rfl

/-- Reading stops at a torn tail, and reports it. -/
theorem readFrom_tail (hexact : store.Exact) {tail : Bytes}
    (htail : Torn tail) (hdrop : store.bytes.drop offset = tail) :
    readFrom store visit offset done
      = pure { done with
          validLength := offset, tornTail := store.size - offset } := by
  by_cases hin : offset < store.size
  · rcases htail with rfl | ⟨r, data, n, hkeys, hencode, hn, rfl⟩
    · have hend := List.length_drop (l := store.bytes) (i := offset)
      rw [hdrop, ← hexact.size_eq] at hend
      rw [List.length_nil] at hend
      omega
    · exact readFrom_torn hin
        (frameAt?_torn hexact (isFrame_of_encode hkeys hencode) hn hdrop)
  · exact readFrom_end (Nat.not_lt.1 hin)

end Reading

-- ============================================================== the cut

/-- The records whose frames stop at or before a cut. -/
def kept (rs : List CommitRecord) (cut : Nat) : List Entry :=
  (entries 0 rs).filter (·.stop ≤ cut)

/-- Cutting nothing off keeps everything. -/
theorem Written.kept_length {rs : List CommitRecord} {bytes : Bytes}
    (h : Written rs bytes) {cut : Nat} (hcut : bytes.length ≤ cut) :
    kept rs cut = entries 0 rs := by
  refine List.filter_eq_self.2 fun n hn => ?_
  have hstop := h.stop_le hn
  exact decide_eq_true (by omega)

/-- A cut into a frame keeps those before it. -/
theorem Written.kept_around {before : List CommitRecord} {whole : Bytes}
    (h : Written before whole) {r : CommitRecord} {data : Bytes}
    (hencode : encode newestFormat r = .ok data) {cut : Nat}
    (hle : whole.length ≤ cut) (hlt : cut < whole.length + data.length)
    (later : List CommitRecord) :
    kept (before ++ r :: later) cut = entries 0 before := by
  have hsize := length_of_encode hencode
  have hafter : (entries (0 + whole.length) (r :: later)).filter
      (·.stop ≤ cut) = [] := by
    refine List.filter_eq_nil_iff.2 fun n hn => ?_
    have hstop : 0 + whole.length + frameSize r ≤ n.stop := by
      rcases List.mem_cons.1 hn with rfl | hn
      · exact Nat.le_refl _
      · exact Nat.le_of_lt (lt_stop hn)
    rw [decide_eq_true_eq]
    omega
  have hbefore : (entries 0 before).filter (·.stop ≤ cut)
      = entries 0 before := h.kept_length hle
  unfold kept
  rw [h.entries_append, List.filter_append, hbefore, hafter, List.append_nil]

/-- What a cut leaves: some frames whole, and less than all of the next. -/
structure CutTo (rs : List CommitRecord) (cut : Nat) (left : Bytes)
    (before : List CommitRecord) (whole tail : Bytes) : Prop where
  records_eq : ∃ later, rs = before ++ later
  written : Written before whole
  left_eq : left = whole ++ tail
  torn : Torn tail
  kept_eq : kept rs cut = entries 0 before

/-- A written log that is cut has whole frames in front and a torn tail. -/
theorem Written.cut {rs : List CommitRecord} {bytes : Bytes}
    (h : Written rs bytes) (hkeys : KeysNonneg rs) (cut : Nat) :
    ∃ before whole tail,
      CutTo rs cut (bytes.take cut) before whole tail := by
  by_cases hin : cut < bytes.length
  · obtain ⟨before, r, later, whole, data, rest, rfl, hwritten, hencode, rfl,
      hle, hlt⟩ := h.around hin
    have hr := hkeys r (List.mem_append_right _ (List.mem_cons_self ..))
    refine ⟨before, whole, data.take (cut - whole.length), ⟨_, rfl⟩, hwritten,
      ?_, .inr ⟨r, data, _, hr, hencode, by omega, rfl⟩,
      hwritten.kept_around hencode hle hlt later⟩
    rw [List.take_append, List.take_of_length_le hle,
      List.take_append_of_le_length (by omega)]
  · have hcut := Nat.not_lt.1 hin
    exact ⟨rs, bytes, [], ⟨[], (List.append_nil rs).symm⟩, h,
      (List.take_of_length_le hcut).trans (List.append_nil bytes).symm,
      .inl rfl, h.kept_length hcut⟩

/-- The place where the last of some frames stops. -/
def lastStop (ns : List Entry) : Nat := (ns.getLast?.map Entry.stop).getD 0

theorem past_newestFormat (rs : List CommitRecord) (n : Nat) :
    Summary.past { records := n, newestFormat } rs
      = { records := n + rs.length, newestFormat } := by
  induction rs generalizing n with
  | nil => rfl
  | cons r rs ih =>
      have hstep := ih (n + 1)
      rw [Nat.add_right_comm] at hstep
      exact hstep

/-- What a reading of such frames is summed up as. -/
theorem past_empty (rs : List CommitRecord) :
    Summary.past {} rs
      = { records := rs.length
          newestFormat := if rs = [] then 0 else newestFormat } := by
  cases rs with
  | nil => rfl
  | cons r rs =>
      have hrest := past_newestFormat rs 1
      rw [Nat.add_comm] at hrest
      exact hrest

/-- Reading what a cut has left visits the records that are whole, in order
and at their places, and reports the rest as torn. -/
theorem read_cut {rs : List CommitRecord} {bytes : Bytes}
    (h : Written rs bytes) (hkeys : KeysNonneg rs) {cut : Nat}
    (hcut : cut ≤ bytes.length) {store : Store} (hexact : store.Exact)
    (hbytes : store.bytes = bytes.take cut) {σ : Type}
    (visit : Nat → CommitRecord → Edit σ Unit) :
    read store visit = (do
      (kept rs cut).forM fun n => visit n.start n.record
      return {
        records := (kept rs cut).length
        validLength := lastStop (kept rs cut)
        tornTail := cut - lastStop (kept rs cut)
        newestFormat := if kept rs cut = [] then 0 else newestFormat }) := by
  obtain ⟨before, whole, tail, hto⟩ := h.cut hkeys cut
  obtain ⟨later, hrecords⟩ := hto.records_eq
  have hleft : store.bytes.drop 0 = whole ++ tail :=
    hbytes.trans hto.left_eq
  have hbefore : KeysNonneg before := fun r hr =>
    hkeys r (hrecords ▸ List.mem_append_left later hr)
  have hstop : lastStop (entries 0 before) = whole.length :=
    (hto.written.stop_last 0).trans (Nat.zero_add _)
  have hsize : store.size = cut := by
    rw [hexact.size_eq, hbytes, List.length_take]
    omega
  have hdrop : store.bytes.drop (0 + whole.length) = tail := by
    rw [← List.drop_drop, hleft, List.drop_left]
  have hnil : entries 0 before = [] ↔ before = [] := by
    rw [← List.length_eq_zero_iff, length_entries, List.length_eq_zero_iff]
  unfold read
  rw [readFrom_written hexact hto.written hbefore hleft,
    readFrom_tail hexact hto.torn hdrop, hto.kept_eq, past_empty, hstop,
    hsize, length_entries, Nat.zero_add]
  simp only [hnil]

end Colonnade.History
