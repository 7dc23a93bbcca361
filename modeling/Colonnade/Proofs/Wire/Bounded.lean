/-
Decoding is bounded by the payload and not by what the payload says of
itself. A count of instructions or a length may be anything; what is there
to read is not.

`Wire.Asking` has what decoding asks for: requests inside the payload, each
made where the one before ended, and one for more than is left refused
before anything is taken. What is said of them here is that decoding is what
they come to, and that a record takes them to the end of the payload.

The loop over the instructions is bounded by what each of them takes: five
bytes at least, for the number of an operation and a table. So there are no
more calls than there are fives behind version and count, and one that
fails.

Chain: what an instruction took is from `Wire.Spelling`.
-/
import Colonnade.Proofs.Wire.Asking

namespace Colonnade.Wire

variable {α β : Type} {p : Bytes}

-- ============================================================= calls

/-- No instruction is spelled in less than the number of its operation and a
table. -/
theorem five_le_instructionBytes (i : Instruction) :
    5 ≤ (instructionBytes i).length := by
  have htable (k : TableKey) : (tableBytes k).length = 4 :=
    length_leBytes 4 _
  cases i <;>
    · simp only [instructionBytes, fieldBytes, cellBytes, List.length_cons,
        List.length_append, htable]
      omega

/-- Reading an instruction gets on by five bytes at least. -/
theorem run_instruction_eq_ok {c : Nat} {i : Instruction} {rest : Bytes}
    (h : Reader.instruction.run (p.drop c) = .ok (i, rest)) :
    ∃ stop, rest = p.drop stop ∧ c + 5 ≤ stop ∧ stop ≤ p.length := by
  obtain ⟨front, hdrop, hfits⟩ := took_instruction _ _ _ h
  have hfront : front.length = (instructionBytes i).length := by
    rw [← written_instructionPlaces, List.length_map]
    exact hfits.length_eq.symm
  have hfive := five_le_instructionBytes i
  have hlength := congrArg List.length hdrop
  rw [List.length_drop, List.length_append] at hlength
  refine ⟨c + front.length, ?_, by omega, by omega⟩
  rw [← List.drop_drop, hdrop, List.drop_left]

/-- The cursors at which so many instructions are read, one behind the other,
from a cursor on until one fails. -/
def attempts (p : Bytes) : Nat → Nat → List Nat
  | 0, _ => []
  | n + 1, c => c :: match Reader.instruction.run (p.drop c) with
    | .ok (_, rest) => attempts p n (p.length - rest.length)
    | .error _ => []

/-- What is stored of the count of the instructions. -/
def storedCount (p : Bytes) : Nat := leValue ((p.drop 8).take 4)

/-- The cursors at which decoding reads an instruction: behind the version
and the count. -/
def decodes (p : Bytes) : List Nat :=
  if p.length < 12 then [] else attempts p (storedCount p) 12

/-- What a call is that reads an instruction at a cursor, the k-th of some:
it gets on by five bytes at least, inside the payload, to where the next call
starts, or it fails and is the last. -/
def GetsOn (p : Bytes) (calls : List Nat) (k c : Nat)
    (out : Except Corruption α) : Prop :=
  match Reader.instruction.run (p.drop c) with
  | .ok (_, rest) => ∃ stop, rest = p.drop stop ∧ c + 5 ≤ stop
    ∧ stop ≤ p.length ∧ ∀ next, calls[k + 1]? = some next → next = stop
  | .error why => calls.length = k + 1 ∧ out = .error why

section Attempts

variable {n c : Nat}

theorem attempts_read {i : Instruction} {stop : Nat}
    (hread : Reader.instruction.run (p.drop c) = .ok (i, p.drop stop))
    (hstop : stop ≤ p.length) :
    attempts p (n + 1) c = c :: attempts p n stop := by
  have hleft : p.length - (p.drop stop).length = stop := by
    rw [List.length_drop]
    omega
  rw [attempts, hread]
  dsimp only
  rw [hleft]

theorem attempts_failed {why : Corruption}
    (hread : Reader.instruction.run (p.drop c) = .error why) :
    attempts p (n + 1) c = [c] := by
  rw [attempts, hread]

/-- The loop gives what it reads first, and then what the rest of it
gives. -/
theorem run_instructions_succ (n : Nat) (bs : Bytes) :
    (Reader.instructions (n + 1)).run bs
      = match Reader.instruction.run bs with
        | .ok (i, rest) => ((Reader.instructions n).run rest).map
            fun (is, left) => (i :: is, left)
        | .error why => .error why := by
  rw [Reader.instructions, StateT.run_bind]
  cases Reader.instruction.run bs with
  | error why => rfl
  | ok taken =>
      show (do
        let is ← Reader.instructions n
        return taken.1 :: is : Reader _).run taken.2 = _
      rw [StateT.run_bind]
      dsimp only
      cases (Reader.instructions n).run taken.2 <;> rfl

/-- The first call is made where the loop starts. -/
theorem attempts_zero {d : Nat} (h : (attempts p n c)[0]? = some d) :
    d = c := by
  cases n with
  | zero => cases h
  | succ n =>
      cases h
      rfl

/-- A call stays what it is behind another, and in anything that fails where
the reading does. -/
theorem GetsOn.cons {calls : List Nat} {k d : Nat} {out : Except Corruption α}
    (h : GetsOn p calls k d out) (c : Nat) :
    GetsOn p (c :: calls) (k + 1) d out := by
  unfold GetsOn at h ⊢
  split at h
  next => exact h
  next => exact ⟨congrArg (· + 1) h.1, h.2⟩

theorem GetsOn.imp {calls : List Nat} {k d : Nat} {out : Except Corruption α}
    {out' : Except Corruption β} (h : GetsOn p calls k d out)
    (hfails : ∀ why, out = .error why → out' = .error why) :
    GetsOn p calls k d out' := by
  unfold GetsOn at h ⊢
  split at h
  next => exact h
  next => exact ⟨h.1, hfails _ h.2⟩

/-- The loop makes these calls: each gets on, or fails and the loop with
it. -/
theorem attempts_getsOn (n : Nat) {k d : Nat} (hc : c ≤ p.length)
    (hcall : (attempts p n c)[k]? = some d) :
    c + 5 * k ≤ d ∧ d ≤ p.length ∧ GetsOn p (attempts p n c) k d
      ((Reader.instructions n).run (p.drop c)) := by
  induction n generalizing c k with
  | zero => cases hcall
  | succ n ih =>
      rw [run_instructions_succ]
      cases hread : Reader.instruction.run (p.drop c) with
      | error why =>
          rw [attempts_failed hread] at hcall ⊢
          cases k with
          | zero =>
              cases hcall
              refine ⟨Nat.le_refl _, hc, ?_⟩
              unfold GetsOn
              rw [hread]
              exact ⟨rfl, rfl⟩
          | succ k => cases hcall
      | ok taken =>
          obtain ⟨i, rest⟩ := taken
          obtain ⟨stop, rfl, hon, hstop⟩ := run_instruction_eq_ok hread
          rw [attempts_read hread hstop] at hcall ⊢
          cases k with
          | zero =>
              cases hcall
              refine ⟨Nat.le_refl _, hc, ?_⟩
              unfold GetsOn
              rw [hread]
              exact ⟨stop, rfl, hon, hstop, fun _ => attempts_zero⟩
          | succ k =>
              obtain ⟨hle, hd, hgets⟩ := ih hstop hcall
              refine ⟨by omega, hd, (hgets.imp fun why hfails => ?_).cons c⟩
              dsimp only
              rw [hfails]
              rfl

/-- Where the loop succeeds, its calls gave the instructions. -/
theorem attempts_gave {is : List Instruction} {rest : Bytes}
    (hc : c ≤ p.length)
    (h : (Reader.instructions n).run (p.drop c) = .ok (is, rest)) :
    (attempts p n c).map
        (fun d => (Reader.instruction.run (p.drop d)).map Prod.fst)
      = is.map .ok := by
  induction n generalizing c is with
  | zero =>
      cases h
      rfl
  | succ n ih =>
      rw [run_instructions_succ] at h
      cases hread : Reader.instruction.run (p.drop c) with
      | error why =>
          rw [hread] at h
          cases h
      | ok taken =>
          obtain ⟨i, left⟩ := taken
          obtain ⟨stop, rfl, -, hstop⟩ := run_instruction_eq_ok hread
          rw [hread] at h
          dsimp only at h
          cases hrest : (Reader.instructions n).run (p.drop stop) with
          | error why =>
              rw [hrest] at h
              cases h
          | ok gave =>
              rw [hrest] at h
              cases h
              rw [attempts_read hread hstop, List.map_cons, hread,
                ih hstop hrest]
              rfl

end Attempts

-- ======================================================== the payload

theorem run_nat (width : Nat) (bs : Bytes) :
    (Reader.nat width).run bs =
      if width ≤ bs.length then .ok (leValue (bs.take width), bs.drop width)
      else .error .unexpectedEnd := by
  rw [Reader.nat, StateT.run_map, run_bytes]
  split <;> rfl

/-- Bytes that are counted are taken if as many as the count says are there
behind it. -/
theorem run_counted {c : Nat} (hcount : c + 8 ≤ p.length) :
    Reader.counted.run (p.drop c)
      = if c + 8 + leValue ((p.drop c).take 8) ≤ p.length then
          .ok ((p.drop (c + 8)).take (leValue ((p.drop c).take 8)),
            p.drop (c + 8 + leValue ((p.drop c).take 8)))
        else .error .unexpectedEnd := by
  have hthere : 8 ≤ (p.drop c).length := by
    rw [List.length_drop]
    omega
  have hleft {n : Nat} :
      n ≤ (p.drop (c + 8)).length ↔ c + 8 + n ≤ p.length := by
    rw [List.length_drop]
    omega
  have hword := leValue_take_lt 8 (p.drop c)
  rw [Reader.counted, StateT.run_bind, Reader.u64, StateT.run_map, run_nat,
    if_pos hthere, List.drop_drop]
  show (Reader.bytes _).run (p.drop (c + 8)) = _
  rw [UInt64.toNat_ofNat_of_lt' hword, run_bytes]
  simp only [hleft, List.drop_drop]

/-- What is read behind a version and a count. -/
theorem run_behind_count (f : UInt64 → UInt32 → Reader α) (p : Bytes) :
    (do f (← Reader.u64) (← Reader.u32)).run p
      = if p.length < 12 then .error .unexpectedEnd
        else (f (UInt64.ofNat (leValue (p.take 8)))
          (UInt32.ofNat (storedCount p))).run (p.drop 12) := by
  rw [StateT.run_bind, Reader.u64, StateT.run_map, run_nat]
  by_cases hversion : 8 ≤ p.length
  · rw [if_pos hversion]
    show (do f _ (← Reader.u32)).run (p.drop 8) = _
    rw [StateT.run_bind, Reader.u32, StateT.run_map, run_nat,
      List.length_drop]
    by_cases hcount : 12 ≤ p.length
    · rw [if_pos (by omega), if_neg (by omega), List.drop_drop]
      rfl
    · rw [if_neg (by omega), if_pos (by omega)]
      rfl
  · rw [if_neg hversion, if_pos (by omega)]
    rfl

theorem toNat_storedCount (p : Bytes) :
    (UInt32.ofNat (storedCount p)).toNat = storedCount p :=
  UInt32.toNat_ofNat_of_lt' (leValue_take_lt 4 (p.drop 8))

/-- Decoding reads as many instructions as are stored, and then there is
nothing left, or it fails. -/
theorem run_record (p : Bytes) :
    Reader.record.run p
      = if p.length < 12 then .error .unexpectedEnd
        else match (Reader.instructions (storedCount p)).run (p.drop 12) with
          | .ok (is, rest) =>
            if rest = [] then
              .ok (⟨⟨UInt64.ofNat (leValue (p.take 8))⟩, is⟩, [])
            else .error .trailingBytes
          | .error why => .error why := by
  let body (version : UInt64) (count : UInt32) : Reader CommitRecord := do
    let is ← Reader.instructions count.toNat
    if !(← get).isEmpty then
      Reader.fail .trailingBytes
    return ⟨⟨version⟩, is⟩
  refine (run_behind_count body p).trans ?_
  by_cases hshort : p.length < 12
  · rw [if_pos hshort, if_pos hshort]
  rw [if_neg hshort, if_neg hshort]
  dsimp only [body]
  rw [toNat_storedCount, StateT.run_bind]
  cases (Reader.instructions (storedCount p)).run (p.drop 12) with
  | error why => rfl
  | ok gave =>
      obtain ⟨is, rest⟩ := gave
      cases rest <;> rfl

theorem run_record_left {r : CommitRecord} {rest : Bytes}
    (h : Reader.record.run p = .ok (r, rest)) : rest = [] := by
  rw [run_record] at h
  split at h
  · cases h
  split at h
  · split at h
    · cases h
      rfl
    · cases h
  · cases h

/-- What is asked for comes to what decoding gives, and to the end of the
payload if that is a record. -/
theorem trace_record (p : Bytes) :
    (Asking.record.trace p 0).2
      = (decodePayload p).map fun r => (r, p.length) := by
  have hrun := Asking.record.run_read (p := p) (Nat.zero_le _)
  have hends := (Asking.record.within_trace (p := p) (Nat.zero_le _)).ends
  rw [List.drop_zero, Asking.read_record] at hrun
  unfold decodePayload
  rw [hrun]
  cases hout : (Asking.record.trace p 0).2 with
  | error why => rfl
  | ok gave =>
      obtain ⟨r, stop⟩ := gave
      rw [hout] at hrun
      have hnone : p.drop stop = [] := run_record_left hrun
      have hstop : stop = p.length :=
        Nat.le_antisymm (hends r stop hout).2 (List.drop_eq_nil_iff.1 hnone)
      rw [hstop]
      rfl

/-- Whatever fails in the loop over the instructions fails in decoding, and
what decoding gives the loop gave. -/
theorem decodePayload_eq (p : Bytes) (hlong : 12 ≤ p.length) :
    decodePayload p
      = match (Reader.instructions (storedCount p)).run (p.drop 12) with
        | .ok (is, rest) =>
          if rest = [] then .ok ⟨⟨UInt64.ofNat (leValue (p.take 8))⟩, is⟩
          else .error .trailingBytes
        | .error why => .error why := by
  rw [decodePayload, run_record, if_neg (Nat.not_lt.2 hlong)]
  split
  · split <;> rfl
  · rfl

/-- Decoding is bounded by the payload. It is what its requests come to:
each is made where the one before ended, none outside the payload, one for
more than there is ends it, a count that was stored is asked for as it was
read, and a record has asked for the whole payload. An instruction is read
once for each five bytes behind version and count and once more at most,
whatever the count is; each reading gets on by five bytes at least or is the
last, and a record has the instructions that were read. -/
theorem decodePayload_bounded (p : Bytes) :
    (Asking.record.read = Reader.record
        ∧ (Asking.record.trace p 0).2
          = ((decodePayload p).map fun r => (r, p.length))
        ∧ Within p 0 (Asking.record.trace p 0).1
          ((decodePayload p).map fun r => (r, p.length)))
      ∧ (∀ c, c + 8 ≤ p.length → Reader.counted.run (p.drop c)
        = if c + 8 + leValue ((p.drop c).take 8) ≤ p.length then
            .ok ((p.drop (c + 8)).take (leValue ((p.drop c).take 8)),
              p.drop (c + 8 + leValue ((p.drop c).take 8)))
          else .error .unexpectedEnd)
      ∧ (decodes p).length ≤ (p.length - 12) / 5 + 1
      ∧ (p.length < 12 → decodes p = [])
      ∧ (∀ k c, (decodes p)[k]? = some c →
        12 + 5 * k ≤ c ∧ c ≤ p.length
          ∧ GetsOn p (decodes p) k c (decodePayload p))
      ∧ ∀ r, decodePayload p = .ok r →
        (decodes p).map
            (fun c => (Reader.instruction.run (p.drop c)).map Prod.fst)
          = r.instructions.map .ok := by
  have hwithin : Within p 0 (Asking.record.trace p 0).1
      ((decodePayload p).map fun r => (r, p.length)) :=
    trace_record p ▸ Asking.record.within_trace (Nat.zero_le _)
  refine ⟨⟨Asking.read_record, trace_record p, hwithin⟩,
    fun _ => run_counted, ?_⟩
  by_cases hshort : p.length < 12
  · have hnone : decodes p = [] := if_pos hshort
    have hfails : decodePayload p = .error .unexpectedEnd := by
      rw [decodePayload, run_record, if_pos hshort]
      rfl
    rw [hnone, hfails]
    exact ⟨Nat.zero_le _, fun _ => rfl, nofun, nofun⟩
  have hlong : 12 ≤ p.length := Nat.le_of_not_lt hshort
  have hcalls : decodes p = attempts p (storedCount p) 12 := if_neg hshort
  have hgets {k c : Nat} (hcall : (decodes p)[k]? = some c) :
      12 + 5 * k ≤ c ∧ c ≤ p.length
        ∧ GetsOn p (decodes p) k c (decodePayload p) := by
    rw [hcalls] at hcall ⊢
    obtain ⟨hle, hc, hgets⟩ := attempts_getsOn _ hlong hcall
    refine ⟨hle, hc, hgets.imp fun why hfails => ?_⟩
    rw [decodePayload_eq p hlong, hfails]
  refine ⟨?_, fun h => absurd h hshort, fun k c => hgets, fun r hr => ?_⟩
  · -- the last call is behind all others
    cases hlast : (decodes p)[(decodes p).length - 1]? with
    | none =>
        rw [List.getElem?_eq_none_iff] at hlast
        omega
    | some c =>
        obtain ⟨hle, hc, -⟩ := hgets hlast
        omega
  · rw [decodePayload_eq p hlong] at hr
    rw [hcalls]
    split at hr
    next is rest hloop =>
      split at hr
      · cases hr
        exact attempts_gave hlong hloop
      · cases hr
    next => cases hr

/-- The largest count there can be, an instruction, and one with the longest
name there can be. -/
def overstated : Bytes :=
  u64Bytes 1 ++ [255, 255, 255, 255] ++ [2, 0, 0, 0, 0]
    ++ [1, 0, 0, 0, 0] ++ u64Bytes (-1)

/-- The name is asked for and is not there, and no third instruction is
looked for. -/
theorem decodePayload_bounded_overstated :
    decodes overstated = [12, 17]
      ∧ (decodes overstated).length ≤ (overstated.length - 12) / 5 + 1
      ∧ (Asking.record.trace overstated 0).1
        = [⟨0, 8, false⟩, ⟨8, 4, false⟩, ⟨12, 1, false⟩, ⟨13, 4, false⟩,
          ⟨17, 1, false⟩, ⟨18, 4, false⟩, ⟨22, 8, false⟩,
          ⟨30, 2 ^ 64 - 1, true⟩]
      ∧ decodePayload overstated = .error .unexpectedEnd := by
  have hcalls : decodes overstated = [12, 17] := by decide +kernel
  have hend : Reader.instruction.run (overstated.drop 17)
      = .error .unexpectedEnd := rfl
  obtain ⟨-, -, hlength, -, hgets, -⟩ := decodePayload_bounded overstated
  refine ⟨hcalls, hlength, by decide +kernel, ?_⟩
  obtain ⟨-, -, hlast⟩ := hgets 1 17 (by rw [hcalls]; rfl)
  unfold GetsOn at hlast
  rw [hend] at hlast
  exact hlast.2

end Colonnade.Wire
