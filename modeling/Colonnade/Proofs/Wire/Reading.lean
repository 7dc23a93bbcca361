/-
What was written is read back. `Reads rd bs a` says that a reader takes
exactly the bytes `bs` off the front of a payload, whatever follows them,
and gives `a`. It is closed under sequencing, so a composite is read back as
soon as its parts are, in the order in which they were written.

Two things can keep an instruction from being read back: an object key
below zero, which the reader takes for damage, and a text too long for its
count. The first is `KeysNonneg`. The second is ruled out by the length of
the whole, and so asks for nothing of each text.

Chain: `Wire.Framing` reads back whole records.
-/
import Colonnade.Config
import Colonnade.Wire.Record
import Mathlib.Tactic.Common

namespace Colonnade

/-- No object key in the instruction is negative. -/
structure Instruction.KeysNonneg (i : Instruction) : Prop where
  key : ∀ k, i.parts.key = some k → 0 ≤ k.raw
  link : ∀ k, i.parts.value = some (.link k) → 0 ≤ k.raw

theorem Value.link?_eq_some {v : Value} {k : ObjectKey} :
    v.link? = some k ↔ v = .link k := by
  cases v <;> simp [Value.link?]

instance (i : Instruction) : Decidable i.KeysNonneg :=
  decidable_of_iff
    ((∀ k ∈ i.parts.key, 0 ≤ k.raw)
      ∧ ∀ v ∈ i.parts.value, ∀ k ∈ v.link?, 0 ≤ k.raw)
    ⟨fun ⟨hkey, hlink⟩ => ⟨hkey, fun k hk => hlink _ hk k rfl⟩,
      fun h => ⟨h.key, fun _ hv k hk =>
        h.link k (hv.trans (congrArg some (Value.link?_eq_some.1 hk)))⟩⟩

namespace Wire

variable {α β : Type}

/-- Reading one thing after another, each where the one before stopped. -/
theorem run_bind_eq_ok {x : Reader α} {f : α → Reader β} {bs rest : Bytes}
    {b : β} :
    (x >>= f).run bs = .ok (b, rest) ↔
      ∃ a mid, x.run bs = .ok (a, mid) ∧ (f a).run mid = .ok (b, rest) := by
  rw [StateT.run_bind]
  cases x.run bs with
  | ok p => exact ⟨fun h => ⟨p.1, p.2, rfl, h⟩,
      fun ⟨_, _, hp, h⟩ => by cases hp; exact h⟩
  | error why => exact ⟨nofun, nofun⟩

theorem run_map_eq_ok {x : Reader α} {f : α → β} {bs rest : Bytes} {b : β} :
    (f <$> x).run bs = .ok (b, rest) ↔
      ∃ a, x.run bs = .ok (a, rest) ∧ f a = b := by
  rw [StateT.run_map]
  cases x.run bs with
  | ok p =>
      constructor
      · intro h
        cases h
        exact ⟨p.1, rfl, rfl⟩
      · rintro ⟨_, hp, rfl⟩
        cases hp
        rfl
  | error why => exact ⟨nofun, nofun⟩

/-- The reader takes these bytes, no more, and gives this. -/
def Reads (rd : Reader α) (bs : Bytes) (a : α) : Prop :=
  ∀ rest, rd.run (bs ++ rest) = .ok (a, rest)

namespace Reads

theorem pure (a : α) : Reads (Pure.pure a) [] a := fun _ => rfl

/-- What is read first leaves the bytes after it to what follows. -/
theorem run_bind {x : Reader α} {f : α → Reader β} {bs : Bytes} {a : α}
    (hx : Reads x bs a) (rest : Bytes) :
    (x >>= f).run (bs ++ rest) = (f a).run rest := by
  rw [StateT.run_bind, hx]
  rfl

/-- What two readers read one behind the other is what they read together. -/
theorem bind {x : Reader α} {f : α → Reader β} {bs cs : Bytes} {a : α}
    {b : β} (hx : Reads x bs a) (hf : Reads (f a) cs b) :
    Reads (x >>= f) (bs ++ cs) b := by
  intro rest
  rw [List.append_assoc, hx.run_bind]
  exact hf rest

/-- What is made of what is read does not change what is read of the bytes. -/
theorem map {x : Reader α} {f : α → β} {bs : Bytes} {a : α}
    (hx : Reads x bs a) : Reads (f <$> x) bs (f a) := by
  intro rest
  rw [StateT.run_map, hx]
  rfl

/-- After the last part of a composite there is nothing left to read. -/
theorem bind_nil {x : Reader α} {f : α → Reader β} {bs : Bytes} {a : α}
    {b : β} (hx : Reads x bs a) (hf : Reads (f a) [] b) :
    Reads (x >>= f) bs b := by
  have := hx.bind hf
  rwa [List.append_nil] at this

/-- A reader that ends with what it makes of the bytes reads them. -/
theorem bind_pure {x : Reader α} {f : α → β} {bs : Bytes} {a : α}
    (hx : Reads x bs a) : Reads (x >>= fun a => Pure.pure (f a)) bs (f a) :=
  hx.bind_nil (Reads.pure (f a))

-- ========================================================== numbers

theorem bytes (bs : Bytes) : Reads (Reader.bytes bs.length) bs bs := by
  intro rest
  unfold Reader.bytes
  dsimp only [StateT.run]
  rw [takeExactly_eq, if_pos (by simp), List.take_left, List.drop_left]

theorem nat (width : Nat) {n : Nat} (h : n < Nat.pow 256 width) :
    Reads (Reader.nat width) (leBytes width n) n := by
  have hbytes := Reads.bytes (leBytes width n)
  rw [length_leBytes] at hbytes
  have := hbytes.map (f := leValue)
  rwa [leValue_leBytes, Nat.mod_eq_of_lt h] at this

theorem u8 (b : UInt8) : Reads Reader.u8 [b] b := by
  have hnat : Reads (Reader.nat 1) [b] b.toNat :=
    (Reads.bytes [b]).map (f := leValue)
  have := hnat.map (f := UInt8.ofNat)
  rwa [UInt8.ofNat_toNat] at this

theorem u32 (n : UInt32) : Reads Reader.u32 (u32Bytes n) n := by
  have := (Reads.nat 4 n.toNat_lt).map (f := UInt32.ofNat)
  rwa [UInt32.ofNat_toNat] at this

theorem u64 (n : UInt64) : Reads Reader.u64 (u64Bytes n) n := by
  have := (Reads.nat 8 n.toNat_lt).map (f := UInt64.ofNat)
  rwa [UInt64.ofNat_toNat] at this

theorem i32 (n : Int32) : Reads Reader.i32 (i32Bytes n) n :=
  (Reads.u32 n.toUInt32).map

theorem i64 (n : Int64) : Reads Reader.i64 (i64Bytes n) n :=
  (Reads.u64 n.toUInt64).map

-- ============================================================ texts

/-- Bytes are read back behind their count, if it is one. -/
theorem counted {bs : Bytes} (h : bs.length ≤ maxSize) :
    Reads Reader.counted (countedBytes bs) bs := by
  have hlt : bs.length < 2 ^ 64 := Nat.lt_succ_of_le h
  have hcount := (Reads.nat 8 hlt).map (f := UInt64.ofNat)
  refine hcount.bind ?_
  rw [UInt64.toNat_ofNat_of_lt' hlt]
  exact Reads.bytes bs

theorem text {s : String} (h : (textBytes s).length ≤ maxSize) :
    Reads Reader.text (textBytes s) s := by
  have hle : (Utf8.encode s).length ≤ maxSize := by
    unfold textBytes countedBytes at h
    rw [List.length_append] at h
    omega
  refine (Reads.counted hle).bind_nil ?_
  rw [Utf8.decode?_encode]
  exact Reads.pure s

-- ============================================================= keys

theorem table (k : TableKey) : Reads Reader.table (tableBytes k) k :=
  (Reads.u32 k.raw).map

theorem column (k : ColumnKey) : Reads Reader.column (columnBytes k) k :=
  (Reads.i64 k.raw).map

/-- An object key is read back unless it is negative. -/
theorem object {k : ObjectKey} (h : 0 ≤ k.raw) :
    Reads Reader.object (objectBytes k) k := by
  refine (Reads.i64 k.raw).bind_nil ?_
  unfold ObjectKey.ofRaw?
  rw [if_pos h]
  exact Reads.pure k

theorem columnType (t : ColumnType) :
    Reads Reader.columnType [typeByte t] t := by
  refine (Reads.u8 (typeByte t)).bind_nil ?_
  have htype : ColumnType.ofCode? (typeByte t).toNat = some t := by
    cases t <;> rfl
  rw [htype]
  exact Reads.pure t

-- ===================================================== declarations

/-- The flags of a declaration are read off its byte one by one. -/
theorem flags_eq (s : ColumnSpec) :
    (flagsOf s &&& nullableFlag != 0) = s.nullable
      ∧ (flagsOf s &&& listFlag != 0) = s.isList
      ∧ (flagsOf s &&& targetFlag != 0) = s.target.isSome := by
  unfold flagsOf
  cases s.nullable <;> cases s.isList <;> cases s.target.isSome <;> decide

/-- A declaration without its target is made again from its parts. -/
theorem make_eq (s : ColumnSpec) :
    ColumnSpec.make s.name s.type s.nullable s.isList
      = { s with target := none } := by
  have hlist : (s.isList || s.type == .linkList) = s.isList := by
    cases hl : s.isList with
    | true => rfl
    | false =>
        have : s.type ≠ .linkList := fun ht => by
          rw [s.isList_of_linkList ht] at hl
          cases hl
        simpa using this
  unfold ColumnSpec.make
  simp only [hlist]

theorem spec {s : ColumnSpec} (h : (specBytes s).length ≤ maxSize) :
    Reads Reader.spec (specBytes s) s := by
  have hname : (textBytes s.name).length ≤ maxSize := by
    unfold specBytes at h
    simp only [List.length_append] at h
    omega
  obtain ⟨hnull, hlist, htarget⟩ := flags_eq s
  have hbytes : specBytes s = textBytes s.name ++ ([typeByte s.type]
      ++ ([flagsOf s] ++ s.target.elim [] tableBytes)) := by
    unfold specBytes
    cases s.target <;> simp
  rw [hbytes]
  refine (Reads.text hname).bind ((Reads.columnType s.type).bind
    ((Reads.u8 (flagsOf s)).bind ?_))
  dsimp only
  rw [hnull, hlist, htarget, make_eq]
  cases ht : s.target with
  | none =>
      have heq : { s with target := none } = s := by
        rw [← ht]
      rw [heq]
      exact Reads.pure s
  | some t =>
      have heq : ColumnSpec.withTarget { s with target := none } t = s := by
        unfold ColumnSpec.withTarget
        rw [← ht]
      have := (Reads.table t).bind_pure
        (f := ColumnSpec.withTarget { s with target := none })
      rwa [heq] at this

-- ============================================================ values

/-- The parts of a timestamp are accepted as they were. -/
theorem timestamp (t : Timestamp) :
    Reads Reader.timestamp (i64Bytes t.seconds ++ i32Bytes t.nanoseconds)
      t := by
  have hmake : Timestamp.make t.seconds t.nanoseconds = .ok t := by
    obtain ⟨⟨hlow, hhigh⟩, hsigns⟩ := t.partsAgree
    unfold Timestamp.make
    rw [dif_neg, dif_neg hsigns]
    intro h
    rcases h with h | h
    · exact absurd hlow (Int32.not_lt.2 h)
    · exact absurd hhigh (Int32.not_lt.2 h)
  refine (Reads.i64 t.seconds).bind ((Reads.i32 t.nanoseconds).bind_nil ?_)
  rw [hmake]
  exact Reads.pure t

/-- A value is read back after the tag of its type. -/
theorem tagged {t : ColumnType} {bs : Bytes} {v : Value}
    (h : Reads (Reader.content t) bs v) :
    Reads Reader.value (typeByte t :: bs) v := by
  show Reads Reader.value ([typeByte t] ++ bs) v
  refine (Reads.u8 (typeByte t)).bind ?_
  have hnull : (typeByte t == nullTag) = false := by cases t <;> rfl
  have htype : ColumnType.ofCode? (typeByte t).toNat = some t := by
    cases t <;> rfl
  rw [hnull, htype]
  exact h

/-- A value is read back from its bytes, if its keys can be read. -/
theorem value {v : Value} (hkey : ∀ k, v = .link k → 0 ≤ k.raw)
    (h : (valueBytes v).length ≤ maxSize) :
    Reads Reader.value (valueBytes v) v := by
  cases v with
  | null => exact (Reads.u8 nullTag).bind_nil (Reads.pure Value.null)
  | int n => exact tagged (Reads.i64 n).map
  | bool b =>
      refine tagged ?_
      have := (Reads.u8 (if b then 1 else 0)).map
        (f := fun b => Value.bool (b != 0))
      cases b <;> exact this
  | string s =>
      refine tagged (Reads.text ?_).map
      unfold valueBytes at h
      rw [List.length_cons] at h
      omega
  | binary bs =>
      refine tagged (Reads.counted ?_).map
      unfold valueBytes countedBytes at h
      simp only [List.length_cons, List.length_append] at h
      omega
  | timestamp t => exact tagged (Reads.timestamp t).map
  | float x => exact tagged (Reads.u32 x.bits).map
  | double x => exact tagged (Reads.u64 x.bits).map
  | link k => exact tagged (Reads.object (hkey k rfl)).map

-- ====================================================== instructions

/-- The place of a cell, and then the rest of the instruction. -/
theorem cell {t : TableKey} {k : ObjectKey} {c : ColumnKey}
    (hkey : 0 ≤ k.raw) {f : TableKey → ObjectKey → ColumnKey → Reader α}
    {bs : Bytes} {a : α} (h : Reads (f t k c) bs a) :
    Reads (do f (← Reader.table) (← Reader.object) (← Reader.column))
      (cellBytes t k c ++ bs) a := by
  unfold cellBytes
  rw [List.append_assoc, List.append_assoc]
  refine (Reads.table t).bind (f := fun t => do
    f t (← Reader.object) (← Reader.column)) ?_
  refine (Reads.object hkey).bind (f := fun k => do
    f t k (← Reader.column)) ?_
  exact (Reads.column c).bind h

/-- The fields of an instruction are read back, unless they hold a negative
object key. -/
theorem fields {i : Instruction} (hkeys : i.KeysNonneg)
    (h : (fieldBytes i).length ≤ maxSize) :
    Reads (Reader.fields (opcode i)) (fieldBytes i) i := by
  have htail {bs cs : Bytes} (h : (bs ++ cs).length ≤ maxSize) :
      cs.length ≤ maxSize := by
    rw [List.length_append] at h
    omega
  cases i with
  | addTable t name =>
      simp only [Reader.fields, opcode, fieldBytes] at h ⊢
      exact (Reads.table t).bind (Reads.text (htail h)).bind_pure
  | removeTable t =>
      simp only [Reader.fields, opcode, fieldBytes]
      exact (Reads.table t).bind_pure
  | addColumn t c spec =>
      simp only [Reader.fields, opcode, fieldBytes, List.append_assoc] at h ⊢
      exact (Reads.table t).bind ((Reads.column c).bind
        (Reads.spec (htail (htail h))).bind_pure)
  | removeColumn t c =>
      simp only [Reader.fields, opcode, fieldBytes]
      exact (Reads.table t).bind (Reads.column c).bind_pure
  | createObject t k =>
      simp only [Reader.fields, opcode, fieldBytes]
      exact (Reads.table t).bind (Reads.object (hkeys.key k rfl)).bind_pure
  | removeObject t k =>
      simp only [Reader.fields, opcode, fieldBytes]
      exact (Reads.table t).bind (Reads.object (hkeys.key k rfl)).bind_pure
  | set t k c v =>
      simp only [Reader.fields, opcode, fieldBytes] at h ⊢
      refine cell (hkeys.key k rfl) (Reads.value ?_ (htail h)).bind_pure
      rintro l rfl
      exact hkeys.link l rfl
  | listInsert t k c index v =>
      simp only [Reader.fields, opcode, fieldBytes, List.append_assoc] at h ⊢
      refine cell (hkeys.key k rfl) ((Reads.u64 index).bind
        (Reads.value ?_ (htail (htail h))).bind_pure)
      rintro l rfl
      exact hkeys.link l rfl
  | listSet t k c index v =>
      simp only [Reader.fields, opcode, fieldBytes, List.append_assoc] at h ⊢
      refine cell (hkeys.key k rfl) ((Reads.u64 index).bind
        (Reads.value ?_ (htail (htail h))).bind_pure)
      rintro l rfl
      exact hkeys.link l rfl
  | listRemove t k c index =>
      simp only [Reader.fields, opcode, fieldBytes]
      exact cell (hkeys.key k rfl) (Reads.u64 index).bind_pure
  | listClear t k c =>
      simp only [Reader.fields, opcode, fieldBytes]
      rw [← List.append_nil (cellBytes t k c)]
      exact cell (hkeys.key k rfl) (Reads.pure (Instruction.listClear t k c))

/-- An instruction is read back from its bytes, if its keys can be read. -/
theorem instruction {i : Instruction} (hkeys : i.KeysNonneg)
    (h : (instructionBytes i).length ≤ maxSize) :
    Reads Reader.instruction (instructionBytes i) i := by
  show Reads Reader.instruction ([opcode i] ++ fieldBytes i) i
  refine (Reads.u8 (opcode i)).bind (fields hkeys ?_)
  unfold instructionBytes at h
  rw [List.length_cons] at h
  omega

/-- A list of instructions is read back after its count. -/
theorem instructions {is : List Instruction}
    (hkeys : ∀ i ∈ is, i.KeysNonneg)
    (h : (is.flatMap instructionBytes).length ≤ maxSize) :
    Reads (Reader.instructions is.length) (is.flatMap instructionBytes)
      is := by
  induction is with
  | nil => exact Reads.pure []
  | cons i is ih =>
      rw [List.flatMap_cons, List.length_append] at h
      rw [List.flatMap_cons]
      refine (Reads.instruction (hkeys i (List.mem_cons_self ..))
        (by omega)).bind (Reads.bind_pure (ih ?_ (by omega)))
      exact fun j hj => hkeys j (List.mem_cons_of_mem _ hj)

end Reads

-- =========================================================== records

/-- A payload is decoded if a record is read from it. -/
theorem decodePayload_eq_ok {p : Bytes} {r : CommitRecord} :
    decodePayload p = .ok r ↔ ∃ rest, Reader.record.run p = .ok (r, rest) := by
  unfold decodePayload
  cases Reader.record.run p with
  | ok out =>
      refine ⟨fun h => ⟨out.2, ?_⟩, fun ⟨rest, h⟩ => ?_⟩
      · cases h
        rfl
      · cases h
        rfl
  | error why => exact ⟨nofun, nofun⟩

/-- A record is read when its instructions are, and then nothing is left. -/
theorem run_record_of_reads {r : CommitRecord} {bs : Bytes}
    (hcount : r.instructions.length ≤ maxCount)
    (his : Reads (Reader.instructions r.instructions.length) bs
      r.instructions) :
    Reader.record.run (u64Bytes r.version.raw ++
      leBytes 4 r.instructions.length ++ bs) = .ok (r, []) := by
  have hlt : r.instructions.length < 2 ^ 32 := Nat.lt_succ_of_le hcount
  have hcountRead : Reads Reader.u32 (leBytes 4 r.instructions.length)
      (UInt32.ofNat r.instructions.length) :=
    (Reads.nat 4 hlt).map
  have hinstructions : Reads
      (Reader.instructions (UInt32.ofNat r.instructions.length).toNat)
      bs r.instructions := by
    rw [UInt32.toNat_ofNat_of_lt' hlt]
    exact his
  unfold Reader.record
  rw [← List.append_nil bs, List.append_assoc, (Reads.u64 _).run_bind,
    hcountRead.run_bind, hinstructions.run_bind]
  rfl

/-- The payload of a record is read as the record, to its last byte, unless
the record holds a negative object key. -/
theorem run_record_payloadBytes {r : CommitRecord}
    (hkeys : ∀ i ∈ r.instructions, i.KeysNonneg)
    (hcount : r.instructions.length ≤ maxCount)
    (h : (payloadBytes r).length ≤ maxCount) :
    Reader.record.run (payloadBytes r) = .ok (r, []) := by
  have hmax : maxCount ≤ maxSize := by decide
  have hlen : (r.instructions.flatMap instructionBytes).length ≤ maxSize := by
    unfold payloadBytes at h
    simp only [List.length_append] at h
    omega
  exact run_record_of_reads hcount (Reads.instructions hkeys hlen)

/-- The payload of a record is decoded to the record, unless it holds a
negative object key. -/
theorem decodePayload_payloadBytes {r : CommitRecord}
    (hkeys : ∀ i ∈ r.instructions, i.KeysNonneg)
    (hcount : r.instructions.length ≤ maxCount)
    (h : (payloadBytes r).length ≤ maxCount) :
    decodePayload (payloadBytes r) = .ok r := by
  unfold decodePayload
  rw [run_record_payloadBytes hkeys hcount h]
  rfl

end Wire

end Colonnade
