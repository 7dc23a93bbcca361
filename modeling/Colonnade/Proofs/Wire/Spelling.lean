/-
Which payloads are read as a record, exactly. `Took rd R` is the converse of
`Reads`: whenever a reader gives something, it took bytes off the front that
are related to it in a known way. It is closed under sequencing like `Reads`
and `Yields`, and for almost every reader the relation is that the bytes are
the ones that the writer would have written. Only truth values and flags
have several spellings, so for what contains them the relation is that the
bytes fit the places of `Wire.Places`.

A record is then read from its spellings and from nothing else. It is
written in one of them, so reading and writing again changes no byte but
those, and keeps the length.

Chain: nothing above uses this; it is what a payload has to be.
-/
import Colonnade.History.Reader
import Colonnade.Proofs.Wire.Places
import Colonnade.Proofs.Wire.Keys
import Colonnade.Proofs.Wire.RoundTrip

namespace Colonnade.Wire

variable {α β : Type}

-- ================================================ what a reader took

/-- Whatever the reader gives, it took bytes off the front that are so
related to it. -/
def Took (rd : Reader α) (R : Bytes → α → Prop) : Prop :=
  ∀ bs a rest, rd.run bs = .ok (a, rest) →
    ∃ front, bs = front ++ rest ∧ R front a

/-- The reader takes what the writer writes, and nothing else. -/
abbrev TookWritten (rd : Reader α) (write : α → Bytes) : Prop :=
  Took rd fun bs a => bs = write a

namespace Took

variable {R : Bytes → α → Prop} {S : Bytes → β → Prop}

theorem pure {a : α} (h : R [] a) : Took (Pure.pure a) R := by
  intro bs b rest hrun
  cases hrun
  exact ⟨[], rfl, h⟩

theorem fail (what : Corruption) : Took (Reader.fail what) R := nofun

/-- What two readers took one after the other is what they took together. -/
theorem bind {x : Reader α} {f : α → Reader β} (hx : Took x R)
    (hf : ∀ front a, R front a →
      Took (f a) fun back b => S (front ++ back) b) :
    Took (x >>= f) S := by
  intro bs b rest hrun
  obtain ⟨a, mid, hxrun, hfrun⟩ := run_bind_eq_ok.1 hrun
  obtain ⟨front, rfl, hfront⟩ := hx bs a mid hxrun
  obtain ⟨back, rfl, hback⟩ := hf front a hfront mid b rest hfrun
  exact ⟨front ++ back, (List.append_assoc ..).symm, hback⟩

/-- What a reader makes of the bytes does not change what it took. -/
theorem map {x : Reader α} {f : α → β}
    (hx : Took x fun bs a => S bs (f a)) : Took (f <$> x) S := by
  intro bs b rest hrun
  obtain ⟨a, hxrun, rfl⟩ := run_map_eq_ok.1 hrun
  exact hx bs a rest hxrun

/-- Less may be said of what was taken. -/
theorem mono {rd : Reader α} {R' : Bytes → α → Prop} (h : Took rd R)
    (himp : ∀ bs a, R bs a → R' bs a) : Took rd R' := by
  intro bs a rest hrun
  obtain ⟨front, hbs, hfront⟩ := h bs a rest hrun
  exact ⟨front, hbs, himp front a hfront⟩

/-- After something that is read as it is written. -/
theorem after {x : Reader α} {f : α → Reader β} {write : α → Bytes}
    (hx : TookWritten x write)
    (hf : ∀ a, Took (f a) fun back b => S (write a ++ back) b) :
    Took (x >>= f) S :=
  hx.bind fun _ a hfront => hfront ▸ hf a

end Took

-- ========================================================== numbers

/-- A run of bytes takes itself. -/
theorem took_bytes (n : Nat) :
    Took (Reader.bytes n) fun bs a => bs = a ∧ a.length = n := by
  intro bs a rest hrun
  unfold Reader.bytes at hrun
  dsimp only [StateT.run] at hrun
  rw [takeExactly_eq] at hrun
  by_cases hn : n ≤ bs.length
  · rw [if_pos hn] at hrun
    cases hrun
    exact ⟨_, (List.take_append_drop n bs).symm, rfl,
      List.length_take_of_le hn⟩
  · rw [if_neg hn] at hrun
    cases hrun

/-- A number takes its bytes, from the least on. -/
theorem took_nat (width : Nat) :
    Took (Reader.nat width) fun bs n =>
      bs = leBytes width n ∧ n < 256 ^ width := by
  refine .map ((took_bytes width).mono ?_)
  rintro bs _ ⟨rfl, rfl⟩
  exact ⟨(leBytes_leValue bs).symm, leValue_lt bs⟩

theorem took_u8 : TookWritten Reader.u8 fun b => [b] := by
  refine .map ((took_nat 1).mono ?_)
  rintro _ n ⟨rfl, -⟩
  rfl

theorem took_u32 : TookWritten Reader.u32 u32Bytes := by
  refine .map ((took_nat 4).mono ?_)
  rintro _ n ⟨rfl, hn⟩
  unfold u32Bytes
  rw [UInt32.toNat_ofNat_of_lt' hn]

theorem took_u64 : TookWritten Reader.u64 u64Bytes := by
  refine .map ((took_nat 8).mono ?_)
  rintro _ n ⟨rfl, hn⟩
  unfold u64Bytes
  rw [UInt64.toNat_ofNat_of_lt' hn]

theorem took_i32 : TookWritten Reader.i32 i32Bytes := .map took_u32

theorem took_i64 : TookWritten Reader.i64 i64Bytes := .map took_u64

-- ============================================================ texts

/-- Counted bytes take their count and themselves. -/
theorem took_counted : TookWritten Reader.counted countedBytes := by
  refine .after took_u64 fun n => (took_bytes n.toNat).mono ?_
  rintro bs _ ⟨rfl, hlength⟩
  unfold countedBytes u64Bytes
  rw [hlength]

/-- A text takes its count and its bytes. -/
theorem took_text : TookWritten Reader.text textBytes := by
  refine .after took_counted fun bs => ?_
  split
  next s hs =>
    refine .pure ?_
    unfold textBytes
    rw [Utf8.encode_of_decode? hs, List.append_nil]
  · exact .fail _

-- ============================================================= keys

theorem took_table : TookWritten Reader.table tableBytes := .map took_u32

theorem took_column : TookWritten Reader.column columnBytes := .map took_i64

theorem took_object : TookWritten Reader.object objectBytes := by
  refine .after took_i64 fun raw => ?_
  unfold ObjectKey.ofRaw?
  by_cases hraw : 0 ≤ raw
  · rw [if_pos hraw]
    exact .pure (List.append_nil _)
  · rw [if_neg hraw]
    exact .fail _

/-- Only the byte of a type is read as the type. -/
theorem typeByte_of_ofCode? {b : UInt8} {t : ColumnType}
    (h : ColumnType.ofCode? b.toNat = some t) : typeByte t = b := by
  unfold ColumnType.ofCode? at h
  have hcode : (t.code : Int) = b.toNat := by
    simpa using List.find?_some h
  unfold typeByte
  rw [Int.ofNat_inj.1 hcode, UInt8.ofNat_toNat]

/-- A type takes the one byte that stands for it. -/
theorem took_columnType :
    TookWritten Reader.columnType fun t => [typeByte t] := by
  refine .after took_u8 fun b => ?_
  split
  next t ht =>
    refine .pure ?_
    dsimp only
    rw [typeByte_of_ofCode? ht, List.append_nil]
  · exact .fail _

-- ===================================================== declarations

/-- Flags from which a declaration follows say what the writer's say. -/
theorem admits_flags {s : ColumnSpec} {c : UInt8}
    (hnull : (c &&& nullableFlag != 0) = s.nullable)
    (hlist : (c &&& listFlag != 0 || s.type == .linkList) = s.isList)
    (htarget : (c &&& targetFlag != 0) = s.target.isSome) :
    (Place.flags s).Admits c := by
  obtain ⟨hnull', hlist', htarget'⟩ := Reads.flags_eq s
  unfold Place.Admits Place.heeded
  by_cases ht : s.type = .linkList
  · simp only [ht, if_true, List.forall_mem_cons, List.not_mem_nil]
    exact ⟨hnull.trans hnull'.symm, htarget.trans htarget'.symm, nofun⟩
  · have hflag : (c &&& listFlag != 0) = s.isList := by
      rw [← hlist, beq_false_of_ne ht, Bool.or_false]
    simp only [ht, if_false, List.forall_mem_cons, List.not_mem_nil]
    exact ⟨hnull.trans hnull'.symm, hflag.trans hlist'.symm,
      htarget.trans htarget'.symm, nofun⟩

/-- A declaration fits its places whatever the flags are that are not looked
at. -/
theorem fits_specPlaces {s : ColumnSpec} {c : UInt8}
    (h : (Place.flags s).Admits c) :
    Fits (specPlaces s) (textBytes s.name ++ ([typeByte s.type]
      ++ ([c] ++ s.target.elim [] tableBytes))) := by
  rw [← List.append_assoc]
  exact Fits.fixed_append_iff.2 ⟨_, rfl, .cons h (Fits.fixed_iff.2 rfl)⟩

/-- A declaration takes bytes that fit its places. -/
theorem took_spec :
    Took Reader.spec fun bs s => Fits (specPlaces s) bs := by
  refine .after took_text fun name => .after took_columnType fun t =>
    .after took_u8 fun c => ?_
  dsimp only
  split
  next htarget =>
    refine .after took_table fun k => .pure ?_
    rw [List.append_nil]
    exact fits_specPlaces (s := (ColumnSpec.make name t
      (c &&& nullableFlag != 0) (c &&& listFlag != 0)).withTarget k)
      (admits_flags rfl rfl htarget)
  next htarget =>
    have hnone : (c &&& targetFlag != 0) = false :=
      Bool.eq_false_iff.2 htarget
    exact .pure (fits_specPlaces (admits_flags rfl rfl hnone))

-- ============================================================ values

/-- A timestamp takes its seconds and its nanoseconds. -/
theorem took_timestamp : TookWritten Reader.timestamp fun t =>
    i64Bytes t.seconds ++ i32Bytes t.nanoseconds := by
  refine .after took_i64 fun seconds => .after took_i32 fun nanoseconds => ?_
  split
  next t ht =>
    unfold Timestamp.make at ht
    split_ifs at ht
    cases ht
    exact .pure (by rw [List.append_nil])
  · exact .fail _

/-- Content whose places are all fixed. -/
theorem took_content_fixed {x : Reader α} {f : α → Value} {t : ColumnType}
    {write : α → Bytes} (hx : TookWritten x write)
    (hplaces : ∀ a, valuePlaces (f a) = fixed (typeByte t :: write a)) :
    Took (f <$> x) fun bs v => Fits (valuePlaces v) (typeByte t :: bs) := by
  refine .map (hx.mono ?_)
  rintro _ a rfl
  rw [hplaces a]
  exact Fits.fixed_iff.2 rfl

/-- The content of a value takes bytes that fit behind the byte for its type.
-/
theorem took_content (t : ColumnType) :
    Took (Reader.content t) fun bs v =>
      Fits (valuePlaces v) (typeByte t :: bs) := by
  cases t with
  | int => exact took_content_fixed took_i64 fun _ => rfl
  | bool =>
      refine .map (took_u8.mono ?_)
      rintro _ c rfl
      exact .cons rfl (.cons (by simp [Place.Admits]) .nil)
  | string => exact took_content_fixed took_text fun _ => rfl
  | binary => exact took_content_fixed took_counted fun _ => rfl
  | timestamp => exact took_content_fixed took_timestamp fun _ => rfl
  | float => exact took_content_fixed took_u32 fun _ => rfl
  | double => exact took_content_fixed took_u64 fun _ => rfl
  | link => exact took_content_fixed took_object fun _ => rfl
  | linkList => exact .fail _

/-- A value takes bytes that fit its places. -/
theorem took_value :
    Took Reader.value fun bs v => Fits (valuePlaces v) bs := by
  refine .after took_u8 fun tag => ?_
  split
  next hnull =>
    obtain rfl := eq_of_beq hnull
    exact .pure (Fits.fixed_iff.2 rfl)
  split
  next t ht =>
    rw [← typeByte_of_ofCode? ht]
    exact took_content t
  · exact .fail _

-- ====================================================== instructions

/-- The place of a cell, and then the rest of the instruction. -/
theorem took_cell {f : TableKey → ObjectKey → ColumnKey → Reader α}
    {R : Bytes → α → Prop}
    (h : ∀ t k c, Took (f t k c) fun bs a => R (cellBytes t k c ++ bs) a) :
    Took (do f (← Reader.table) (← Reader.object) (← Reader.column)) R := by
  refine .after took_table fun t => .after took_object fun k =>
    .after took_column fun c => (h t k c).mono fun bs a hR => ?_
  unfold cellBytes at hR
  simpa using hR

/-- The fields that are read of an instruction fit its places, and the
number of its operation is the one that was read before. -/
theorem took_fields (op : UInt8) :
    Took (Reader.fields op) fun bs i =>
      op = opcode i ∧ Fits (fieldPlaces i) bs := by
  unfold Reader.fields
  split
  · exact .after took_table fun t => .after took_text fun name =>
      .pure ⟨rfl, Fits.fixed_iff.2 (by simp [fieldBytes])⟩
  · exact .after took_table fun t =>
      .pure ⟨rfl, Fits.fixed_iff.2 (by simp [fieldBytes])⟩
  · refine .after took_table fun t => .after took_column fun c =>
      took_spec.bind fun bs spec hspec => .pure ⟨rfl, ?_⟩
    exact Fits.fixed_append_iff.2 ⟨bs, by simp, hspec⟩
  · exact .after took_table fun t => .after took_column fun c =>
      .pure ⟨rfl, Fits.fixed_iff.2 (by simp [fieldBytes])⟩
  · exact .after took_table fun t => .after took_object fun k =>
      .pure ⟨rfl, Fits.fixed_iff.2 (by simp [fieldBytes])⟩
  · exact .after took_table fun t => .after took_object fun k =>
      .pure ⟨rfl, Fits.fixed_iff.2 (by simp [fieldBytes])⟩
  · refine took_cell fun t k c => took_value.bind fun bs v hv =>
      .pure ⟨rfl, ?_⟩
    exact Fits.fixed_append_iff.2 ⟨bs, by simp, hv⟩
  · refine took_cell fun t k c => .after took_u64 fun index =>
      took_value.bind fun bs v hv => .pure ⟨rfl, ?_⟩
    exact Fits.fixed_append_iff.2 ⟨bs, by simp, hv⟩
  · refine took_cell fun t k c => .after took_u64 fun index =>
      took_value.bind fun bs v hv => .pure ⟨rfl, ?_⟩
    exact Fits.fixed_append_iff.2 ⟨bs, by simp, hv⟩
  · exact took_cell fun t k c => .after took_u64 fun index =>
      .pure ⟨rfl, Fits.fixed_iff.2 (by simp [fieldBytes])⟩
  · exact took_cell fun t k c =>
      .pure ⟨rfl, Fits.fixed_iff.2 (by simp [fieldBytes])⟩
  · exact .fail _

/-- An instruction takes bytes that fit its places. -/
theorem took_instruction :
    Took Reader.instruction fun bs i => Fits (instructionPlaces i) bs := by
  refine .after took_u8 fun op => (took_fields op).mono ?_
  rintro bs i ⟨rfl, hfits⟩
  exact .cons rfl hfits

/-- Instructions take bytes that fit their places one behind the other. -/
theorem took_instructions (n : Nat) :
    Took (Reader.instructions n) fun bs is =>
      is.length = n ∧ Fits (is.flatMap instructionPlaces) bs := by
  induction n with
  | zero => exact .pure ⟨rfl, .nil⟩
  | succ n ih =>
      refine took_instruction.bind fun front i hi =>
        ih.bind fun back is his => .pure ⟨congrArg (· + 1) his.1, ?_⟩
      rw [List.flatMap_cons, List.append_nil]
      exact hi.append his.2

-- =========================================================== records

/-- The bytes are one of the ways to spell a record that can be read: they
fit its places, none of its object keys is negative, and its instructions
can be counted. -/
structure Spells (p : Bytes) (r : CommitRecord) : Prop where
  fits : Fits (payloadPlaces r) p
  keys : ∀ i ∈ r.instructions, i.KeysNonneg
  count : r.instructions.length < 2 ^ 32

/-- What is decoded to a record is a spelling of it. -/
theorem spells_of_decodePayload {p : Bytes} {r : CommitRecord}
    (h : decodePayload p = .ok r) : Spells p r := by
  have hkeys := keysNonneg_of_decodePayload h
  obtain ⟨rest, hrun⟩ := decodePayload_eq_ok.1 h
  obtain ⟨version, _, hversion, hafter⟩ := run_bind_eq_ok.1 hrun
  obtain ⟨count, _, hcount, hafter'⟩ := run_bind_eq_ok.1 hafter
  obtain ⟨is, left, his, hend⟩ := run_bind_eq_ok.1 hafter'
  obtain ⟨_, rfl, rfl⟩ := took_u64 _ _ _ hversion
  obtain ⟨_, rfl, rfl⟩ := took_u32 _ _ _ hcount
  obtain ⟨front, rfl, hlength, hfits⟩ := took_instructions _ _ _ _ his
  -- the reader stops at the end of the payload or not at all
  cases left with
  | cons b left => cases hend
  | nil =>
      cases hend
      refine ⟨?_, hkeys, hlength ▸ count.toNat_lt⟩
      rw [List.append_nil, ← List.append_assoc]
      refine Fits.fixed_append_iff.2 ⟨front, ?_, hfits⟩
      rw [hlength]
      rfl

/-- Every spelling of a record is decoded to it. -/
theorem Spells.decodePayload {p : Bytes} {r : CommitRecord}
    (h : Spells p r) (hlength : p.length ≤ maxSize) :
    decodePayload p = .ok r := by
  obtain ⟨back, rfl, hback⟩ := Fits.fixed_append_iff.1 h.fits
  rw [List.length_append] at hlength
  exact decodePayload_eq_ok.2 ⟨[], run_record_of_reads
    (Nat.le_of_lt_succ h.count)
    (Reads.instructions_of_fits h.keys hback (by omega))⟩

namespace Spells

variable {p : Bytes} {r : CommitRecord}

/-- All spellings of a record are as long as the one that is written. -/
theorem length_eq (h : Spells p r) : p.length = (payloadBytes r).length := by
  rw [← written_payloadPlaces, List.length_map]
  exact h.fits.length_eq.symm

/-- A spelling differs from what is written in truths and flags alone. -/
theorem loose_of_ne (h : Spells p r) {n : Nat}
    (hne : p[n]? ≠ (payloadBytes r)[n]?) :
    (payloadPlaces r)[n]? = some (.truth true)
      ∨ ∃ s, (payloadPlaces r)[n]? = some (.flags s) := by
  rw [← written_payloadPlaces] at hne
  exact h.fits.loose_of_ne hne

/-- A record that has a spelling is written, unless that is too long for
the length of a payload. -/
theorem encode_eq (h : Spells p r) (format : UInt16) :
    encode format r =
      if p.length < 2 ^ 32 then .ok (frame format (payloadBytes r))
      else .error (.illegalArgument .payloadTooLarge) := by
  have hmax : maxCount + 1 = 2 ^ 32 := by decide
  have hcount : ¬ maxCount < r.instructions.length := by
    have := h.count
    omega
  unfold encode
  rw [if_neg hcount, h.length_eq]
  by_cases hp : (payloadBytes r).length < 2 ^ 32
  · have hfit : ¬ maxCount < (payloadBytes r).length := by omega
    simp only [hp, hfit, if_true, if_false]
    rfl
  · have hlong : maxCount < (payloadBytes r).length := by omega
    simp only [hp, hlong, if_true, if_false]
    rfl

end Spells

/-- What the reader accepts is, up to the spelling of truths and flags, what
the writer writes. A payload that is decoded to a record has the length of
the payload that is written of the record, and every byte of it in which the
two differ is the content of a truth value, where all bytes but zero mean
the same, or the flags of a declaration, where bits that say nothing are
passed over. The record is written, and with that payload, unless the
payload does not fit its length. All such spellings are decoded to the
record, and whatever is not decoded is reported as damage at the offset. -/
theorem decodes_spellings_only (p : Bytes) (offset : Nat) :
    (∀ r : CommitRecord, decodePayload p = .ok r →
      Spells p r
      ∧ p.length = (payloadBytes r).length
      ∧ (∀ n : Nat, p[n]? ≠ (payloadBytes r)[n]? →
        (payloadPlaces r)[n]? = some (.truth true)
          ∨ ∃ s, (payloadPlaces r)[n]? = some (.flags s))
      ∧ (p.length < 2 ^ 32 → ∃ data, encode newestFormat r = .ok data
        ∧ verifyFrame offset data = .ok (payloadBytes r))
      ∧ (2 ^ 32 ≤ p.length →
        encode newestFormat r = .error (.illegalArgument .payloadTooLarge)))
    ∧ (p.length ≤ maxSize → ∀ r, Spells p r → decodePayload p = .ok r)
    ∧ ((∀ r, decodePayload p ≠ .ok r) → ∃ what,
      History.ofRecord offset (decodePayload p)
        = .error (.corrupt offset what)) := by
  refine ⟨fun r hr => ?_, fun hp r h => h.decodePayload hp, fun hnone => ?_⟩
  · have h := spells_of_decodePayload hr
    refine ⟨h, h.length_eq, fun n => h.loose_of_ne, fun hp => ?_, fun hp => ?_⟩
    · refine ⟨frame newestFormat (payloadBytes r), ?_, ?_⟩
      · rw [h.encode_eq, if_pos hp]
      · exact verifyFrame_eq_ok.1 (verifyFrame_frame newestFormat _)
    · rw [h.encode_eq, if_neg (Nat.not_lt.2 hp)]
  · cases hout : decodePayload p with
    | ok r => exact absurd hout (hnone r)
    | error what => exact ⟨what, rfl⟩

/-- A record with a truth and a declaration. -/
def looseRecord : CommitRecord :=
  ⟨⟨1⟩, [.addColumn ⟨0⟩ ⟨0⟩ (.linkList "l" ⟨0⟩),
    .set ⟨0⟩ ⟨0⟩ ⟨0⟩ (.bool true)]⟩

/-- The record as the writer would not spell it: of the flags of the
declaration, that of a list is missing and one that means nothing is there,
and the truth is a two. -/
def loosePayload : Bytes :=
  [1, 0, 0, 0, 0, 0, 0, 0, 2, 0, 0, 0,
    3, 0, 0, 0, 0, 0, 0, 0, 0, 0, 0, 0, 0,
    1, 0, 0, 0, 0, 0, 0, 0, 0x6C, 13, 0x84, 0, 0, 0, 0,
    7, 0, 0, 0, 0, 0, 0, 0, 0, 0, 0, 0, 0, 0, 0, 0, 0, 0, 0, 0, 0, 1, 2]

/-- The loosely written payload spells the record it is read as. -/
theorem spells_loosePayload : Spells loosePayload looseRecord :=
  ⟨by decide +kernel, by decide, by decide⟩

/-- A payload that is loosely written is read, and an empty one is not. -/
theorem decodes_spellings_only_loose :
    decodePayload loosePayload = .ok looseRecord
      ∧ loosePayload.length = (payloadBytes looseRecord).length
      ∧ (∃ data, encode newestFormat looseRecord = .ok data
        ∧ verifyFrame 7 data = .ok (payloadBytes looseRecord))
      ∧ ∃ what, History.ofRecord 7 (decodePayload [])
        = .error (.corrupt 7 what) := by
  have hdecode : decodePayload loosePayload = .ok looseRecord :=
    (decodes_spellings_only loosePayload 7).2.1 (by decide) _
      spells_loosePayload
  obtain ⟨-, hlength, -, hencode, -⟩ :=
    (decodes_spellings_only loosePayload 7).1 _ hdecode
  exact ⟨hdecode, hlength, hencode (by decide),
    (decodes_spellings_only [] 7).2.2 nofun⟩

/-- The writer does not write the payload that the reader accepted. -/
theorem loosePayload_not_written :
    decodePayload loosePayload = .ok looseRecord
      ∧ ∃ data payload, encode newestFormat looseRecord = .ok data
        ∧ verifyFrame 0 data = .ok payload ∧ payload ≠ loosePayload := by
  refine ⟨spells_loosePayload.decodePayload (by decide), _, _,
    spells_loosePayload.encode_eq newestFormat,
    verifyFrame_eq_ok.1 (verifyFrame_frame newestFormat _), ?_⟩
  decide +kernel

end Colonnade.Wire
